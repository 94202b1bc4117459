import Steward.Text.Decimal
import Steward.Text.Search
import Steward.Toml.Basic

/-!
# Laying settings over others

Settings are given as pairs of a key and a value, later ones over earlier ones. A key is a path such
as `backend.image` or `packages[0].name`; a key of any other form is a name as it stands. Tables are
merged, everything else is replaced, and names count without regard to the case of letters.
-/

namespace Steward.Toml

open Text

/-- One step of a path. -/
inductive Step where
  | name (s : String)
  /-- The item at a position; a negative one counts from the end. -/
  | item (position : Int)
deriving DecidableEq, Repr

/-- Whether a name in a path may hold a character. -/
def isPathChar (c : Char) : Bool := c.isAlphanum || c = ' ' || c = '_' || c = '-'

/-- The steps of a path behind its first name. -/
def readSteps : (fuel : Nat) → List Char → Option (List Step)
  | _, [] => some []
  | 0, _ => none
  | fuel + 1, '.' :: rest => do
    let name := rest.takeWhile isPathChar
    if name.isEmpty then none
    else return .name (String.ofList name) :: (← readSteps fuel (rest.drop name.length))
  | fuel + 1, '[' :: rest => do
    let (digits, rest) ← cut? [']'] rest
    let digits := digits.dropWhile (· = ' ')
    let position ← ofSigned? (trimSpaces digits)
    if digits.head? = some '+' then none
    else return .item position :: (← readSteps fuel rest)
  | _, _ => none
where
  /-- The text without blanks at its end. -/
  trimSpaces (s : List Char) : List Char := (s.reverse.dropWhile (· = ' ')).reverse

/-- The steps of a key. -/
def stepsOf (key : String) : List Step :=
  let chars := key.toList
  let name := chars.takeWhile isPathChar
  let steps := if name.isEmpty then none
    else (readSteps chars.length (chars.drop name.length)).map (.name (String.ofList name) :: ·)
  steps.getD [.name key]

/-- A value with a field set; what is no table becomes one. -/
def setField (old : Toml) (name : String) (v : Toml) : Toml := table (put name v old.fields)

mutual

/-- A value laid over another. -/
def merge (old : Option Toml) : Toml → Toml
  | table fields => mergeFields (old.getD empty) fields
  | v => v

/-- Fields laid over a value. -/
def mergeFields (old : Toml) : List (String × Toml) → Toml
  | [] => old
  | (name, v) :: rest =>
    let name := name.toLower
    mergeFields (setField old name (merge (old.fields.lookup name) v)) rest

end

/-- The items of a list; any other value has none. -/
def items : Toml → List Toml
  | list items => items
  | _ => []

/-- A list with the item at a position changed, filled up with empty lists as far as needed. A
position before the first changes nothing. -/
def changeItem (position : Int) (f : Option Toml → Toml) (old : Toml) : Toml :=
  let items := old.items
  let position := if position < 0 then position + items.length else position
  if position < 0 then old
  else
    let i := position.toNat
    let filled := items ++ List.replicate (i + 1 - items.length) (list [])
    list (filled.set i (f filled[i]?))

/-- A value laid over another at the end of a path. -/
def setAt (v : Toml) : List Step → Option Toml → Toml
  | [], old => merge old v
  | [.item i], old => changeItem i (fun _ => v) (old.getD (list []))
  | .item i :: path, old => changeItem i (setAt v path) (old.getD (list []))
  | .name s :: path, old =>
    let old := old.getD empty
    setField old s.toLower (setAt v path (old.fields.lookup s.toLower))

/-- Settings laid over others. -/
def overlay (old : Toml) (settings : List (String × Toml)) : Toml :=
  settings.foldl (fun t (key, v) => setAt v (stepsOf key) (some t)) old

end Steward.Toml
