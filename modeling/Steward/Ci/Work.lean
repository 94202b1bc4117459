import Steward.Ci.Job
import Steward.Ci.Order

/-!
# The parts of CI work

The steps that install, check and build packages, and those that build, try and publish the
backend's image.
-/

namespace Steward.Ci

namespace Package

/-- Where a package lies, seen from where the sources lie. -/
def directory (p : Package) (source : String) : String := Path.join source p.path

/-- Installs what a package depends on. -/
def install (p : Package) (source : String) : Step where
  name := p.name ++ ": bun install"
  program := "bun"
  args := ["install", "--frozen-lockfile"]
  directory := p.directory source

/-- Runs a script of a package. -/
def script (p : Package) (source name : String) : Step where
  name := p.name ++ ": bun run " ++ name
  program := "bun"
  args := ["run", name]
  directory := p.directory source

/-- Installs a package and runs its check scripts. -/
def checkStage (p : Package) (source : String) : Stage :=
  ⟨"check " ++ p.name, p.install source :: p.checks.map (p.script source)⟩

/-- Installs a package and builds it. -/
def buildStage (p : Package) (source : String) : Stage :=
  ⟨"build " ++ p.name, [p.install source, p.script source p.build]⟩

/-- Runs the tests of a package and measures what they cover. -/
def measure (p : Package) (source : String) : Step where
  name := p.name ++ ": bun test --coverage"
  program := "bun"
  args := ["test", "--coverage", "--coverage-reporter=lcov", "--coverage-dir", p.coverage]
  directory := p.directory source

/-- Installs a package and measures what its tests cover. -/
def coverageStage (p : Package) (source : String) : Stage :=
  ⟨"coverage " ++ p.name, [p.install source, p.measure source]⟩

/-- Generates the database client of a package. -/
def generate (p : Package) (source : String) : Step where
  name := "prisma generate"
  program := "bunx"
  args := ["prisma", "generate"]
  directory := p.directory source

/-- Installs a package and generates its database client. -/
def generateStage (p : Package) (source : String) : Stage :=
  ⟨"generate prisma", [p.install source, p.generate source]⟩

end Package

/-! ## The image -/

namespace Backend

/-- Builds the image of the backend, whose package is `p`. -/
def buildImage (b : Backend) (p : Package) (o : Order) (ref : String) : Step where
  name := "docker build " ++ ref
  program := "docker"
  args := ["build", "-f", Path.join (p.directory o.source) b.dockerfile, "-t", ref] ++
    (match o.version with
      | some version => ["--build-arg", "VERSION=" ++ version]
      | none => []) ++
    (match o.commit with
      | some commit => ["--build-arg", "GIT_SHA=" ++ commit, "--label",
          "org.opencontainers.image.revision=" ++ commit]
      | none => []) ++
    [p.directory o.source]
  directory := o.source

/-- Runs the command that an image has to pass. -/
def tryImage (b : Backend) (o : Order) (ref : String) : Step where
  name := "smoke test " ++ ref
  program := "docker"
  args := ["run", "--rm", ref] ++ b.smokeCommand
  directory := o.source

/-- Opens the registry. -/
def login (b : Backend) (o : Order) (token : Secret) : Step where
  name := "docker login " ++ b.registryHost
  program := "docker"
  args := ["login", b.registryHost, "-u", b.registryUser, "--password-stdin"]
  directory := o.source
  input := some token

/-- Sends an image to the registry. -/
def push (o : Order) (ref : String) : Step where
  name := "docker push " ++ ref
  program := "docker"
  args := ["push", ref]
  directory := o.source

/-- Opens the registry and sends an image to it. -/
def publishStage (b : Backend) (o : Order) (token : Secret) (ref : String) : Stage :=
  ⟨"publish", [b.login o token, push o ref]⟩

end Backend

/-! ## Work on a configuration -/

namespace Config

/-- The reference of the image that an order is about. -/
def imageRef (c : Config) (o : Order) : String := c.backend.imageRef o.imageTag

/-- Generates the database client of the backend. -/
def generate (c : Config) (o : Order) : Task Unit := do
  let p ← Task.ofExcept c.backendPackage
  let _ ← (p.generateStage o.source).run

/-- Checks every package; gives their number. -/
def checkAll (c : Config) (o : Order) : Task Nat := do
  let _ ← Stage.runAll (c.packages.map (·.checkStage o.source))
  return c.packages.length

/-- Builds every package; gives their number. -/
def buildAll (c : Config) (o : Order) : Task Nat := do
  let _ ← Stage.runAll (c.packages.map (·.buildStage o.source))
  return c.packages.length

/-- Builds the backend's image; gives its reference. -/
def buildImage (c : Config) (o : Order) : Task String := do
  let p ← Task.ofExcept c.backendPackage
  let _ ← (c.backend.buildImage p o (c.imageRef o)).run
  return c.imageRef o

/-- Tries the image of a reference: its command has to succeed and to print the expected text. -/
def tryImage (c : Config) (o : Order) (ref : String) : Task Unit := do
  let step := c.backend.tryImage o ref
  let output ← step.run
  if Text.contains c.backend.smokeExpect.toList output.out.toList then return ()
  else throw (.smokeTest c.backend.smokeExpect step.commandLine)

/-- Sends the image of a reference to the registry. -/
def publish (c : Config) (o : Order) (token : Secret) (ref : String) : Task Unit := do
  let _ ← (c.backend.publishStage o token ref).run

/-- Generates the client, checks every package while it builds the image, and tries the image; gives
the number of packages and the image's reference. -/
def runAll (c : Config) (o : Order) : Task (Nat × String) := do
  c.generate o
  let (checked, ref) ← (c.checkAll o).both (c.buildImage o)
  c.tryImage o ref
  return (checked, ref)

end Config

end Steward.Ci
