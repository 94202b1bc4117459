import Steward.Ci.Config.Basic

/-!
# Orders

What an operation is told: where the sources are, which version and commit they are, and what the
operation is to work on.
-/

namespace Steward.Ci

/-- What an operation is told. -/
structure Order where
  /-- The root of the source tree. -/
  source : String
  version : Option String := none
  /-- The commit that the sources are at. -/
  commit : Option String := none
  /-- What opens the registry. -/
  token : Option Secret := none
  package : Option String := none

namespace Order

/-- The characters of a commit that make a tag. -/
def shortCommit : Nat := 12

/-- The tag of an image of which neither version nor commit is known. -/
def defaultTag : String := "dev"

/-- The tag of images: the version, else the start of the commit; an empty text says nothing. -/
def imageTag (o : Order) : String :=
  match o.version.filter (!·.isEmpty), o.commit.filter (!·.isEmpty) with
  | some version, _ => version
  | none, some commit => String.ofList (commit.toList.take shortCommit)
  | none, none => defaultTag

/-- The name of the package to work on, which an operation cannot do without. -/
def packageName (o : Order) (operation : String) : Except Fault String :=
  match o.package with
  | some name => .ok name
  | none => .error (.missingArgument operation "package")

/-- The token, which an operation cannot do without; an empty one opens nothing. -/
def registryToken (o : Order) (operation : String) : Except Fault Secret :=
  match o.token.filter (!·.isEmpty) with
  | some token => .ok token
  | none => .error (.missingArgument operation "registry-token")

end Order

end Steward.Ci
