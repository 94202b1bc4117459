import Steward.Json.Record
import Steward.Text.Cut
import Steward.Word

/-!
# Syntax nodes

A syntax tree is a JSON document; its nodes are the objects with a text as their `type`. A node
knows the way that leads to it from the root, so that two nodes are the same only if they stand at
the same place. Offsets count UTF-16 units of the source, lines start at 1 and columns at 0.

A syntax tree is gone through once, each node before and after its children. A visit has a tag: the
type of the node on the way down, and the type with `:exit` behind it on the way up.

* `Node.child?`, `Node.children`: the nodes below a node, by field and in the order of the source.
* `Tree.ofJson?`: the tree of a document, its children in the order of the source.
-/

namespace Steward.Lint

open Json (Decoder Fields)

/-- A step from a node to a value below it. -/
inductive Step where
  | field (name : String)
  | item (name : String) (index : Nat)
deriving DecidableEq, Repr

/-- A node of a syntax tree, and the way to it from the root, last step first. -/
structure Node where
  value : Json
  way : List Step

/-- The `type` of a value that is a node. -/
def nodeType? (v : Json) : Option String := (v.field? "type").bind Json.text?

/-- A line and a column. -/
structure Position where
  line : UInt32
  column : UInt32
deriving DecidableEq, Repr

/-- Where a node starts and ends. -/
structure Location where
  start : Position
  finish : Position
deriving DecidableEq, Repr

/-- Reads a position. -/
def Position.decode : Decoder Position :=
  (mk <$> .required "line" Decoder.uint32 <*> .required "column" Decoder.uint32 : Fields _).read

/-- Reads a location. -/
def Location.decode : Decoder Location :=
  (mk <$> .required "start" Position.decode <*> .required "end" Position.decode : Fields _).read

namespace Node

/-- The node that a value is. -/
def ofJson? (way : List Step) (v : Json) : Option Node := (nodeType? v).map fun _ => ⟨v, way⟩

/-- The root of a document. -/
def root? (v : Json) : Option Node := ofJson? [] v

/-- The type of a node. -/
def type (n : Node) : String := (nodeType? n.value).getD ""

/-- Whether two nodes stand at the same place of one document. -/
def same (a b : Node) : Bool := a.way = b.way

/-- The text in a field. -/
def text? (n : Node) (field : String) : Option String := (n.value.field? field).bind Json.text?

/-- The node in a field. -/
def child? (n : Node) (field : String) : Option Node :=
  (n.value.field? field).bind (ofJson? (.field field :: n.way))

/-- The nodes among the values of a list, counted from `index`. -/
def ofItems (way : List Step) (field : String) : (index : Nat) → List Json → List Node
  | _, [] => []
  | index, v :: rest =>
    (ofJson? (.item field index :: way) v).toList ++ ofItems way field (index + 1) rest

/-- The nodes in the list in a field. -/
def childList (n : Node) (field : String) : List Node :=
  match n.value.field? field with
  | some (.list items) => ofItems n.way field 0 items
  | _ => []

/-- The name of an identifier. -/
def identifier? (n : Node) : Option String :=
  if n.type = "Identifier" ∨ n.type = "PrivateIdentifier" then n.text? "name" else none

/-- Whether the node is the identifier of a name. -/
def isIdentifier (n : Node) (name : String) : Bool := n.identifier? = some name

/-- Whether the node in a field is the identifier of a name. -/
def hasIdentifier (n : Node) (field name : String) : Bool :=
  (n.child? field).any (·.isIdentifier name)

/-- Whether a member is looked up by the value of an expression. -/
def isComputed (n : Node) : Bool := ((n.value.field? "computed").bind Json.bool?).getD false

/-- The name of the member that a member expression looks up by name. -/
def member? (n : Node) : Option String :=
  if n.type ≠ "MemberExpression" ∨ n.isComputed then none
  else (n.child? "property").bind identifier?

/-- Whether a node looks up a member of an object that is an identifier. -/
def isMemberOf (n : Node) (object name : String) : Bool :=
  n.member? = some name && n.hasIdentifier "object" object

/-- An offset. -/
def offset? (v : Json) : Option Nat :=
  match v with
  | .int n => if 0 ≤ n then some n.toNat else none
  | _ => none

/-- The offsets at which a node starts and ends. -/
def range? (n : Node) : Option (Nat × Nat) :=
  match n.value.field? "range" with
  | some (.list (start :: finish :: _)) => do
    let start ← offset? start
    let finish ← offset? finish
    return (start, finish)
  | _ => none

/-- Where a node starts and ends. -/
def location? (n : Node) : Option Location :=
  (n.value.field? "loc").bind fun v => (Location.decode v).toOption

/-- The part of the source that a node covers. -/
def source? (n : Node) (source : String) : Option String := do
  let (start, finish) ← n.range?
  let start ← Text.byteOffset? start source.toList
  let finish ← Text.byteOffset? finish source.toList
  let inside ← Text.between? Text.units8 start finish source.toList
  return String.ofList inside

/-! ## Children -/

/-- The fields of a node that hold no children. -/
def plainFields : List String := ["type", "loc", "range", "parent", "tokens", "comments"]

/-- The offset by which children are put in order; the last for a node without range. -/
def rank (n : Node) : Nat := (n.range?.map (·.1)).getD (Word.count64 - 1)

/-- The nodes in a field, as itself or as a list. -/
def inField (way : List Step) (name : String) (v : Json) : List Node :=
  if plainFields.contains name then []
  else
    match v with
    | .list items => ofItems way name 0 items
    | v => (ofJson? (.field name :: way) v).toList

/-- The nodes in fields. -/
def inFields (way : List Step) (fields : List (String × Json)) : List Node :=
  fields.flatMap fun (name, v) => inField way name v

/-- The children of a node in the order of the source, those at one offset in the order of the
fields. -/
def children (n : Node) : List Node :=
  match n.value with
  | .object fields => (inFields n.way fields).mergeSort fun a b => a.rank ≤ b.rank
  | _ => []

end Node

/-! ## Trees and visits -/

/-- A node with the trees of its children, in the order of the source. -/
inductive Tree where
  | mk (node : Node) (children : List Tree)

namespace Tree

/-- The node at the root. -/
def node : Tree → Node
  | mk n _ => n

/-- The trees below the root. -/
def children : Tree → List Tree
  | mk _ ts => ts

mutual

/-- The tree of a value that is a node. -/
def ofJson? (way : List Step) : Json → Option Tree
  | .object fields =>
    (nodeType? (.object fields)).map fun _ =>
      mk ⟨.object fields, way⟩
        ((ofFields way fields).mergeSort fun a b => a.node.rank ≤ b.node.rank)
  | _ => none

/-- The trees in fields, each as itself or in a list. -/
def ofFields (way : List Step) : List (String × Json) → List Tree
  | [] => []
  | (name, .list items) :: rest =>
    (if Node.plainFields.contains name then [] else ofItems way name 0 items) ++ ofFields way rest
  | (name, v) :: rest =>
    (if Node.plainFields.contains name then [] else (ofJson? (.field name :: way) v).toList) ++
      ofFields way rest

/-- The trees among the values of a list, counted from `index`. -/
def ofItems (way : List Step) (name : String) (index : Nat) : List Json → List Tree
  | [] => []
  | v :: rest =>
    (ofJson? (.item name index :: way) v).toList ++ ofItems way name (index + 1) rest

end

end Tree

/-- A node on the way down or up, with its ancestors, nearest first. -/
structure Visit where
  tag : String
  node : Node
  ancestors : List Node

/-- The parent of the node. -/
def Visit.parent? (v : Visit) : Option Node := v.ancestors.head?

end Steward.Lint
