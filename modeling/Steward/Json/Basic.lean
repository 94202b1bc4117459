import Steward.Binary64

/-!
# JSON values

The tree that a JSON text stands for. Objects keep their fields in document order, repeated keys
included. Numbers are integers of 64 bits or floats; a string or number that is well formed but
stands for no value (half of a surrogate pair, a number beyond every float) is `unread`, and an
object with such a name is `cut`.

`Json.Encode` is the class of types whose values have a document. A list is written as the list of
its items, a pair as a list of two, and a value that may be missing as itself or `null`.
-/

namespace Steward

/-- A JSON value. -/
inductive Json where
  | null
  | bool (b : Bool)
  | int (n : Int)
  | float (x : Binary64)
  | text (s : String)
  | list (items : List Json)
  | object (fields : List (String × Json))
  | unread
  /-- An object with a name that stands for no text, and its fields before that name. -/
  | cut (fields : List (String × Json))
deriving Inhabited, Repr

namespace Json

/-- The value of the first field of that name. -/
def field? (name : String) : Json → Option Json
  | object fields => fields.lookup name
  | _ => none

/-- The items of a list. -/
def items? : Json → Option (List Json)
  | list items => some items
  | _ => none

/-- The string of a text. -/
def text? : Json → Option String
  | text s => some s
  | _ => none

/-- The number of an integer. -/
def int? : Json → Option Int
  | int n => some n
  | _ => none

/-- The flag of a boolean. -/
def bool? : Json → Option Bool
  | bool b => some b
  | _ => none

/-- A string, or `null` where there is none. -/
def ofOption {α : Type} (f : α → Json) : Option α → Json
  | some a => f a
  | none => null

/-- The field list with one field more, put in place of an earlier field of that name. -/
def putField (fields : List (String × Json)) (name : String) (value : Json) :
    List (String × Json) :=
  match fields with
  | [] => [(name, value)]
  | (n, v) :: rest =>
    if name < n then (name, value) :: (n, v) :: rest
    else if name = n then (name, value) :: rest
    else (n, v) :: putField rest name value

mutual

/-- The value with the fields of every object in the order of their names, the last of several
fields of one name taken. -/
def sorted : Json → Json
  | list items => list (sortedItems items)
  | object fields => object ((sortedFields fields).foldl (fun acc (n, v) => putField acc n v) [])
  | v => v

/-- The items, each with its objects in order. -/
def sortedItems : List Json → List Json
  | [] => []
  | v :: rest => sorted v :: sortedItems rest

/-- The fields, each with the objects of its value in order. -/
def sortedFields : List (String × Json) → List (String × Json)
  | [] => []
  | (n, v) :: rest => (n, sorted v) :: sortedFields rest

end

mutual

/-- Whether every part of the value was read. -/
def readable : Json → Bool
  | unread | cut _ => false
  | list items => readableItems items
  | object fields => readableFields fields
  | _ => true

/-- Whether every part of the items was read. -/
def readableItems : List Json → Bool
  | [] => true
  | v :: rest => readable v && readableItems rest

/-- Whether every part of the field values was read. -/
def readableFields : List (String × Json) → Bool
  | [] => true
  | (_, v) :: rest => readable v && readableFields rest

end

mutual

/-- The value with every list and object below `depth` levels of nesting made `unread`. -/
def clip (depth : Nat) : Json → Json
  | list items =>
    match depth with
    | 0 => unread
    | depth + 1 => list (clipItems depth items)
  | object fields =>
    match depth with
    | 0 => unread
    | depth + 1 => object (clipFields depth fields)
  | v => v

/-- The items with lists and objects below `depth` levels made `unread`. -/
def clipItems (depth : Nat) : List Json → List Json
  | [] => []
  | v :: rest => clip depth v :: clipItems depth rest

/-- The fields with lists and objects below `depth` levels made `unread`. -/
def clipFields (depth : Nat) : List (String × Json) → List (String × Json)
  | [] => []
  | (n, v) :: rest => (n, clip depth v) :: clipFields depth rest

end

/-! ## Writing values as documents -/

/-- The types whose values have a document. -/
class Encode (α : Type) where
  encode : α → Json

export Encode (encode)

instance : Encode Json := ⟨id⟩
instance : Encode Unit := ⟨fun _ => null⟩
instance : Encode Bool := ⟨bool⟩
instance : Encode String := ⟨text⟩
instance : Encode Int := ⟨int⟩
instance : Encode Nat := ⟨fun n => int n⟩
instance : Encode UInt32 := ⟨fun n => int n.toNat⟩
instance {α : Type} [Encode α] : Encode (Option α) := ⟨ofOption encode⟩
instance {α : Type} [Encode α] : Encode (List α) := ⟨fun l => list (l.map encode)⟩

instance {α β : Type} [Encode α] [Encode β] : Encode (α × β) :=
  ⟨fun (a, b) => list [encode a, encode b]⟩

/-- A field of an object. -/
def field {α : Type} [Encode α] (name : String) (a : α) : String × Json := (name, encode a)

/-- The field of a value that may be missing; a missing one has none. -/
def fieldOf {α : Type} [Encode α] (name : String) (a : Option α) : List (String × Json) :=
  (a.map (field name)).toList

/-- The document of a fault: what kind it is of, and its text where it has one. -/
def ofFault (kind : String) (message : Option String) : Json :=
  object (field "error" kind :: fieldOf "message" message)

end Json

end Steward
