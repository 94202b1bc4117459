/-!
# Scripts

What a script of the command interpreter says: programs with their words, and how they are joined.
-/

namespace Steward.Shell

/-- How a file is opened for a stream. -/
inductive Mode where
  | read
  | write
  | append
deriving DecidableEq, Repr

/-- What is made of the value of a variable and the word beside it. -/
inductive Use where
  /-- The value, or the word where there is none. -/
  | fallback
  /-- The value, or the word where there is none, which the variable is given then. -/
  | assigned
  /-- The word where there is a value, else nothing. -/
  | alternative
  /-- The value; where there is none the script ends with the word as its complaint. -/
  | required
  /-- The value without the start that the word as a pattern matches. -/
  | withoutStart (longest : Bool)
  /-- The value without the end that the word as a pattern matches. -/
  | withoutEnd (longest : Bool)
  /-- The number of characters of the value. -/
  | length
deriving DecidableEq, Repr

mutual

/-- A part of a word. Parts that were quoted are never split or dropped. -/
inductive Piece where
  | plain (quoted : Bool) (s : String)
  /-- What is made of the value of a variable and a word; an empty value counts as none if
  `orEmpty`. -/
  | parameter (quoted : Bool) (name : String) (use : Use) (orEmpty : Bool) (word : List Piece)
  /-- What a script prints, without the line breaks at its end. -/
  | output (quoted : Bool) (script : Command)
  /-- The number that a formula comes to. -/
  | formula (quoted : Bool) (text : List Piece)

/-- Where one of the numbered streams of a command goes or comes from. -/
inductive Redirect where
  | file (stream : Nat) (mode : Mode) (path : List Piece)
  | stream (stream : Nat) (target : List Piece)
  /-- What is read stands in the script itself. -/
  | here (stream : Nat) (content : List Piece)

/-- A command. -/
inductive Command where
  /-- Settings of variables, and the words of a program and its arguments; `after` is the number of
  line breaks from here to the end of the script. -/
  | simple (after : Nat) (settings : List (String × List Piece)) (words : List (List Piece))
      (redirects : List Redirect)
  /-- What the first prints is what the second reads. -/
  | pipe (first second : Command)
  /-- The second runs only if the first succeeds. -/
  | both (first second : Command)
  /-- The second runs only if the first fails. -/
  | either (first second : Command)
  | negated (body : Command)
  | sequence (commands : List Command)
  /-- The settings of variables in it are lost after it. -/
  | apart (body : Command) (redirects : List Redirect)
  | group (body : Command) (redirects : List Redirect)
  /-- The first arm whose condition succeeds. -/
  | choose (arms : List (Command × Command)) (otherwise : Command)
  /-- Runs again for as long as the condition's success is as expected. -/
  | loop (expected : Bool) (condition body : Command)
  /-- Runs for each word, or for each argument of the script where no words are given. -/
  | each (name : String) (words : Option (List (List Piece))) (body : Command)
  /-- The first arm with a pattern that the word matches. -/
  | pick (word : List Piece) (arms : List (List (List Piece) × Command))
  /-- Gives a command a name, under which it is run with arguments of its own. -/
  | define (name : String) (body : Command)
  /-- Runs apart from what follows, which does not wait for it. -/
  | background (body : Command)

end

end Steward.Shell
