import Steward.Ci.Work

/-!
# Operations

The work that can be asked for by name.

* `Operation.ofName?_name`: an operation is found by its name.
-/

namespace Steward.Ci

/-- What an operation ends in. -/
inductive Result where
  | status (text : String)
  /-- The reference of an image. -/
  | image (ref : String)
  | directory (path : String)
deriving DecidableEq, Repr

namespace Result

/-- What kind of result it is. -/
def kind : Result → String
  | status _ => "Status"
  | image _ => "Image"
  | directory _ => "Directory"

/-- The result as it is printed. -/
def text : Result → String
  | status t | image t | directory t => t

instance : Json.Encode Result := ⟨fun r => Json.encode (r.kind, r.text)⟩

end Result

/-- An operation. -/
inductive Operation where
  | check
  | build
  | ci
  | deploy
  | generatePrisma
  | buildBackendImage
  | publishBackendImage
  | smokeTestBackendImage
  | checkPackage
  | buildPackage
  | coveragePackage
deriving DecidableEq, Repr

namespace Operation

/-- The operations, in the order in which they are listed. -/
def all : List Operation :=
  [check, build, ci, deploy, generatePrisma, buildBackendImage, publishBackendImage,
    smokeTestBackendImage, checkPackage, buildPackage, coveragePackage]

/-- The name by which an operation is asked for. -/
def name : Operation → String
  | check => "check"
  | build => "build"
  | ci => "ci"
  | deploy => "deploy"
  | generatePrisma => "generate-prisma"
  | buildBackendImage => "build-backend-image"
  | publishBackendImage => "publish-backend-image"
  | smokeTestBackendImage => "smoke-test-backend-image"
  | checkPackage => "check-package"
  | buildPackage => "build-package"
  | coveragePackage => "coverage-package"

/-- What an operation does, in a few words. -/
def description : Operation → String
  | check => "Install and run the check scripts of every package"
  | build => "Build every package"
  | ci => "Prisma generate, checks and image build, then the image smoke test"
  | deploy => "Run ci, then publish the backend image"
  | generatePrisma => "Generate the Prisma client in the backend package"
  | buildBackendImage => "Build the backend Docker image"
  | publishBackendImage => "Build and push the backend image"
  | smokeTestBackendImage => "Build the backend image and run its smoke command"
  | checkPackage => "Install and run the check scripts of --package"
  | buildPackage => "Build --package and return its artifact directory"
  | coveragePackage => "Run --package's tests with coverage"

/-- The operation of a name. -/
def ofName? (name : String) : Option Operation := all.find? (·.name = name)

@[simp] theorem ofName?_name (op : Operation) : ofName? op.name = some op := by
  cases op <;> decide

/-- The package that an operation is to work on. -/
def target (op : Operation) (c : Config) (o : Order) : Except Fault Package := do
  c.package (← o.packageName op.name)

/-- The work of an operation. A token is asked for before any step is run. -/
def run (c : Config) (o : Order) (op : Operation) : Task Result := do
  match op with
  | check =>
    let count ← c.checkAll o
    return .status ("checks passed for " ++ Text.decimal count ++ " package(s)")
  | build =>
    let count ← c.buildAll o
    return .status ("built " ++ Text.decimal count ++ " package(s)")
  | ci =>
    let (count, ref) ← c.runAll o
    return .status ("ci passed: " ++ Text.decimal count ++ " package(s) checked, " ++ ref ++
      " smoke-tested")
  | deploy =>
    let token ← Task.ofExcept (o.registryToken op.name)
    let _ ← c.runAll o
    c.publish o token (c.imageRef o)
    return .image (c.imageRef o)
  | generatePrisma =>
    c.generate o
    return .status "prisma client generated"
  | buildBackendImage => return .image (← c.buildImage o)
  | publishBackendImage =>
    let token ← Task.ofExcept (o.registryToken op.name)
    let ref ← c.buildImage o
    c.publish o token ref
    return .image ref
  | smokeTestBackendImage =>
    let ref ← c.buildImage o
    c.tryImage o ref
    return .status ("smoke test passed for " ++ ref)
  | checkPackage =>
    let p ← Task.ofExcept (op.target c o)
    let _ ← (p.checkStage o.source).run
    return .status (p.name ++ ": checks passed")
  | buildPackage =>
    let p ← Task.ofExcept (op.target c o)
    let _ ← (p.buildStage o.source).run
    return .directory (Path.join (p.directory o.source) p.artifacts)
  | coveragePackage =>
    let p ← Task.ofExcept (op.target c o)
    let _ ← (p.coverageStage o.source).run
    return .directory (Path.join (p.directory o.source) p.coverage)

end Operation

/-- The work of the operation of a name. -/
def perform (c : Config) (o : Order) (name : String) : Task Result :=
  match Operation.ofName? name with
  | some op => Operation.run c o op
  | none => Task.ofExcept (.error (.unknownOperation name))

end Steward.Ci
