import Steward.Text.Search

/-!
# Command lines

A command line is a list of words: options that are flags or take a value, and operands. Options are
known by their full names; a value stands behind an equals sign or as the next word. The first word
that is wrong, or that asks for help, decides.
-/

namespace Steward.Cli

/-- What an option is followed by. -/
inductive Taking where
  | nothing
  | anyText
  /-- A text that is not empty. -/
  | path
  | oneOf (names : List String)
deriving DecidableEq, Repr

/-- An option. -/
structure Flag where
  name : String
  /-- The letter of its short form. -/
  letter : Option Char := none
  taking : Taking := .nothing
deriving DecidableEq, Repr

/-- What words a command takes. -/
structure Grammar where
  flags : List Flag
  /-- Flags that end the reading of the command line with information. -/
  informing : List Flag
  operands : Nat := 0
  /-- The words that begin a command of their own. -/
  commands : List String := []
deriving DecidableEq, Repr

/-- Why a command line is not carried out. -/
inductive Usage where
  /-- It asks for information on the program. -/
  | information
  | wrong
deriving DecidableEq, Repr

/-- The code that the program ends with. -/
def Usage.code : Usage → Nat
  | information => 0
  | wrong => 2

/-- The words of a command line by what they are; options have their values, flags an empty one. -/
structure Arguments where
  options : List (String × String) := []
  operands : List String := []
  /-- The word that begins a command of its own, and the words behind it. -/
  command : Option (String × List String) := none
deriving DecidableEq, Repr

/-- Whether an option takes a text. -/
def Taking.allows (t : Taking) (value : String) : Bool :=
  match t with
  | nothing => false
  | anyText => true
  | path => !value.isEmpty
  | oneOf names => names.contains value

namespace Arguments

/-- Whether an option is given. -/
def has (a : Arguments) (name : String) : Bool := (a.options.lookup name).isSome

/-- The words with one more option, which has to be the first of its name. -/
def withOption (a : Arguments) (f : Flag) (value : String) : Except Usage Arguments :=
  if a.has f.name then .error .wrong else .ok { a with options := a.options ++ [(f.name, value)] }

/-- The words with one more operand, if there is room for it. -/
def withOperand (g : Grammar) (a : Arguments) (word : String) : Except Usage Arguments :=
  if a.operands.length < g.operands then .ok { a with operands := a.operands ++ [word] }
  else .error .wrong

/-- Reads a group of short flags. -/
def readLetters (g : Grammar) (a : Arguments) : List Char → Except Usage Arguments
  | [] => .ok a
  | c :: rest =>
    if g.informing.any (·.letter = some c) then .error .information
    else
      match g.flags.find? (·.letter = some c) with
      | some f => do readLetters g (← a.withOption f "") rest
      | none => .error .wrong

/-- Whether a word is read as an option. -/
def isOption (word : String) : Bool := word.startsWith "-" && word ≠ "-"

/-- Reads the words of a command. -/
def read (g : Grammar) (a : Arguments) : List String → Except Usage Arguments
  | [] => .ok a
  | word :: rest =>
    if g.commands.contains word then .ok { a with command := some (word, rest) }
    else if word = "--" then rest.foldlM (withOperand g) a
    else if word.startsWith "--" then
      let chars := word.toList.drop 2
      let (name, value) := match Text.cut? ['='] chars with
        | some (name, value) => (String.ofList name, some (String.ofList value))
        | none => (String.ofList chars, none)
      if g.informing.any (·.name = name) then
        .error (if value.isSome then .wrong else .information)
      else
        match g.flags.find? (·.name = name), value with
        | none, _ => .error .wrong
        | some f, some value =>
          if f.taking.allows value then do read g (← a.withOption f value) rest else .error .wrong
        | some f, none =>
          if f.taking = .nothing then do read g (← a.withOption f "") rest
          else
            match rest with
            | [] => .error .wrong
            | next :: more =>
              if isOption next || !f.taking.allows next then .error .wrong
              else do read g (← a.withOption f next) more
    else if isOption word then do read g (← readLetters g a (word.toList.drop 1)) rest
    else do read g (← withOperand g a word) rest

end Arguments

end Steward.Cli
