import Steward.Lint.Rule

/-!
# Database clients in tests

A test file that creates a `PrismaClient` has to disconnect it in a call of `afterAll`. The first
client of the file is reported at the end of the program if nothing disconnects.

* `Clients`: what is kept while a file is walked.
* `keepClient`, `noteDisconnect`, `reportClient`: what is done with it.
-/

namespace Steward.Lint

/-- The name for a client that is bound to none. -/
def defaultClient : String := "prisma"

/-- The name that a node's value is bound to, given its parent. -/
def bindingName? (parent : Option Node) : Option String := do
  let parent ← parent
  let field ←
    if parent.type = "VariableDeclarator" then some "id"
    else if parent.type = "AssignmentExpression" then some "left"
    else none
  let target ← parent.child? field
  target.identifier?.or target.member?

/-- What the rule keeps of a file: the first new client, with its name, and whether a client was
disconnected. -/
structure Clients where
  client : Option (Node × String) := none
  disconnected : Bool := false

/-- Whether a node is a call of `afterAll`. -/
def isAfterAll (n : Node) : Bool := n.type = "CallExpression" && n.hasIdentifier "callee" "afterAll"

/-- Keeps the first node that creates a client. -/
def keepClient : StateHandler Clients := fun s v =>
  if v.node.hasIdentifier "callee" "PrismaClient" && s.client.isNone then
    (.nothing, { s with client := some (v.node, (bindingName? v.parent?).getD defaultClient) })
  else (.nothing, s)

/-- Takes note of a `$disconnect` inside a call of `afterAll`. -/
def noteDisconnect : StateHandler Clients := fun s v =>
  if v.node.member? = some "$disconnect" && v.ancestors.any isAfterAll then
    (.nothing, { s with disconnected := true })
  else (.nothing, s)

/-- The fix that puts a call of `afterAll` at the end of a source. -/
def disconnectHook (source client : String) : Fix :=
  let separator := if source.isEmpty || Text.endsWith ['\n'] source.toList then "" else "\n"
  { start := source.utf8ByteSize, finish := source.utf8ByteSize
    text := separator ++ "\nafterAll(async () => \x7b\n  await " ++ client ++
      ".$disconnect();\n\x7d);\n" }

/-- Reports the client that was kept, unless one was disconnected. -/
def reportClient (file : File) : StateHandler Clients := fun s _ =>
  match s.client.filter fun _ => !s.disconnected with
  | none => (.nothing, s)
  | some (n, name) =>
    (.atNode n "missingDisconnect" [("name", name)] (some (disconnectHook file.source name)), s)

/-- The handlers of a test file. -/
def clientHandlers (file : File) : List (String × StateHandler Clients) :=
  [("NewExpression", keepClient), ("MemberExpression", noteDisconnect),
    ("Program:exit", reportClient file)]

/-- Reports a test file whose client is never disconnected. -/
def prismaClientDisconnect : Rule where
  about :=
    { name := "prisma-client-disconnect", kind := .problem
      description := "Require $disconnect() in afterAll for PrismaClient instances created in tests"
      messages := [("missingDisconnect",
        "PrismaClient `\x7b\x7bname\x7d\x7d` is never disconnected; " ++
          "add `afterAll(() => \x7b\x7bname\x7d\x7d.$disconnect())`.")]
      fixable := true }
  handlers file := if file.isTest then withState {} (clientHandlers file) else []

end Steward.Lint
