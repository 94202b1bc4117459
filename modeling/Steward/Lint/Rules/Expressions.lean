import Steward.Lint.Rule

/-!
# Rules about single expressions

Expressions that are to be avoided whatever stands around them: type assertions, effects in
components, and calls of the console.
-/

namespace Steward.Lint

/-! ## Type assertions

An assertion `x as T` or `<T>x` goes around type checking. Allowed are `as const`, and `as unknown`,
which is mostly the first half of an assertion that is reported itself. -/

/-- Whether a type may be asserted. -/
def isAllowedType (t : Node) : Bool :=
  t.type = "TSUnknownKeyword" || t.type = "TSTypeReference" && t.hasIdentifier "typeName" "const"

/-- Reports an assertion. -/
def checkAssertion (file : File) (n : Node) : Outcome :=
  match n.child? "typeAnnotation" with
  | none => .fail (.unexpectedShape (n.type ++ " without typeAnnotation"))
  | some t =>
    if isAllowedType t then .nothing
    else .atNode n "noTypeAssertion" [("type", (t.source? file.source).getD t.type)]

/-- Reports every assertion of a type that may not be asserted. -/
def noTypeAssertions : Rule where
  about :=
    { name := "no-type-assertions", kind := .problem
      description := "Disallow type assertions other than `as const` and `as unknown`"
      messages := [("noTypeAssertion",
        "Type assertion to `\x7b\x7btype\x7d\x7d` bypasses type checking; " ++
          "narrow with a type guard or validate with a schema instead.")] }
  handlers file :=
    [("TSAsExpression", fun _ v => checkAssertion file v.node),
      ("TSTypeAssertion", fun _ v => checkAssertion file v.node)]

/-! ## Effects in components -/

/-- Whether a function is `useEffect`, also as a member of `React`. -/
def isUseEffect (callee : Node) : Bool :=
  callee.isIdentifier "useEffect" || callee.isMemberOf "React" "useEffect"

/-- Reports every call of `useEffect`. -/
def noUseEffect : Rule where
  about :=
    { name := "no-use-effect", kind := .suggestion
      description := "Disallow useEffect in components"
      messages := [("noUseEffect", "Avoid useEffect; derive values during render, handle events " ++
        "directly, or use a data-fetching hook.")] }
  handlers _ := [("CallExpression", fun _ v =>
    if (v.node.child? "callee").any isUseEffect then .atNode v.node "noUseEffect" else .nothing)]

/-! ## Logging -/

/-- The methods of the console that log. -/
def consoleMethods : List String := ["log", "info", "warn", "error", "debug"]

/-- The method of a function that logs to the console. -/
def consoleMethod? (callee : Node) : Option String :=
  callee.member?.filter fun method =>
    callee.hasIdentifier "object" "console" && consoleMethods.contains method

/-- Reports every call that logs to the console. -/
def requireStructuredLogging : Rule where
  about :=
    { name := "require-structured-logging", kind := .suggestion
      description := "Require the structured logger instead of console methods"
      messages := [("useLogger", "Use the structured logger " ++
        "instead of console.\x7b\x7bmethod\x7d\x7d().")] }
  handlers _ := [("CallExpression", fun _ v =>
    match (v.node.child? "callee").bind consoleMethod? with
    | some method => .atNode v.node "useLogger" [("method", method)]
    | none => .nothing)]

end Steward.Lint
