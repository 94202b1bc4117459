import Steward.Shell.Intrinsic
import Steward.Shell.Reader
import Steward.Shell.Word

/-!
# The command interpreter

Words are expanded, streams are redirected, and programs run one after the other; the commands of a
pipe run from the left to the right. A script that has taken more steps than its fuel counts as one
that never ends.
-/

namespace Steward.Shell

open Text

/-- A script in its own words: those behind `-c`, in a file, or to be read; with its name and
arguments. -/
def scriptOf (args : List String) : Act (Except String (String × String × List String)) := do
  match args with
  | [] => return .ok (decodeBytes (← takeInput), "sh", [])
  | "-c" :: script :: name :: rest => return .ok (script, name, rest)
  | ["-c", script] => return .ok (script, "sh", [])
  | path :: rest =>
    match (← get).machine.disk.content? (← placeOf path) with
    | some content => return .ok (decodeBytes content, path, rest)
    | none => return .error ("sh: 0: cannot open " ++ path ++ ": No such file")
mutual

/-- The words that a word is expanded to, added to those before. -/
def expand (fuel : Nat) (w : Splitting) (pieces : List Piece) : Act Splitting := do
  match fuel, pieces with
  | 0, _ => throw .overdue
  | _, [] => return w
  | fuel + 1, .parameter true "@" _ _ _ :: rest =>
    expand fuel (w.addEach (← get).arguments) rest
  | fuel + 1, piece :: rest =>
    let (s, kind) ← valueOf fuel piece
    match kind with
    | some quoted => expand fuel (w.add quoted s) rest
    | none => expand fuel (w.addSplit s) rest

/-- The text that a part of a word is expanded to, and whether it was quoted; a value that was not
is `none`, and may be split. -/
def valueOf (fuel : Nat) (piece : Piece) : Act (String × Option Bool) := do
  match fuel with
  | 0 => throw .overdue
  | fuel + 1 =>
    let mark (quoted : Bool) : Option Bool := if quoted then some true else none
    match piece with
    | .plain quoted s => return (s, some quoted)
    | .parameter quoted name use orEmpty word =>
      let value := (← get).value? name
      let held := if orEmpty && value = some "" then none else value
      let s ← match use, held with
        | .length, _ => pure (decimal (value.getD "").length)
        | .withoutStart _, _ | .withoutEnd _, _ =>
          pure (stripped use (.ofWord (← markedOf fuel word).chars) (value.getD ""))
        | .alternative, some _ => textOf fuel word
        | .alternative, none => pure ""
        | _, some s => pure s
        | .fallback, none => textOf fuel word
        | .assigned, none => do
          let s ← textOf fuel word
          assign name s
          pure s
        | .required, none => do
          let s ← textOf fuel word
          let _ ← object (name ++ ": " ++ if s.isEmpty then "parameter not set" else s) 2
          throw (.exit 2)
      return (s, mark quoted)
    | .output quoted script =>
      let bytes ← captured (isolated (run fuel true script))
      return (chomp (decodeBytes bytes), mark quoted)
    | .formula quoted text => return (← calculate (← textOf fuel text), mark quoted)

/-- The word that a word is expanded to where it is not split. -/
def markedOf (fuel : Nat) (pieces : List Piece) : Act Marked := do
  match fuel, pieces with
  | 0, _ => throw .overdue
  | _, [] => return []
  | fuel + 1, piece :: rest =>
    let (s, kind) ← valueOf fuel piece
    return (s, kind = some true) :: (← markedOf fuel rest)

/-- The text that a word is expanded to where it is not split. -/
def textOf (fuel : Nat) (pieces : List Piece) : Act String := do
  match fuel with
  | 0 => throw .overdue
  | fuel + 1 => return (← markedOf fuel pieces).text

/-- The words that words are expanded to. -/
def expandAll (fuel : Nat) (words : List (List Piece)) : Act (List String) := do
  match fuel, words with
  | 0, _ => throw .overdue
  | _, [] => return []
  | fuel + 1, word :: rest =>
    let first := (← expand fuel {} word).words
    let s ← get
    return first.flatMap (·.names s) ++ (← expandAll fuel rest)

/-- Opens redirections; gives a complaint where one cannot be. -/
def redirect (fuel : Nat) (redirects : List Redirect) : Act (Option String) := do
  match fuel, redirects with
  | 0, _ => throw .overdue
  | _, [] => return none
  | fuel + 1, .file stream mode path :: rest =>
    match openFile stream mode (← textOf fuel path) (← get) with
    | .ok s =>
      set s
      redirect fuel rest
    | .error complaint => return some complaint
  | fuel + 1, .stream stream target :: rest =>
    match joinStream stream (← textOf fuel target) (← get) with
    | .ok s =>
      set s
      redirect fuel rest
    | .error complaint => return some complaint
  | fuel + 1, .here _ content :: rest =>
    let input := (← textOf fuel content).toUTF8
    modify fun s => { s with input }
    redirect fuel rest

/-- Runs a command with redirections, which are undone after it. -/
def redirected (fuel : Nat) (redirects : List Redirect) (act : Act Unit) : Act Unit := do
  match fuel with
  | 0 => throw .overdue
  | fuel + 1 =>
    if redirects.isEmpty then act
    else
      let s ← get
      let ownInput := redirects.any fun r =>
        match r with
        | .file _ mode _ => mode = .read
        | .stream .. => false
        | .here .. => true
      let restore : Act Unit := modify fun t =>
        { t with outSink := s.outSink, errSink := s.errSink
                 input := if ownInput then s.input else t.input }
      tryCatch (do
        match ← redirect fuel redirects with
        | none => act
        | some complaint =>
          modify fun t => { t with outSink := s.outSink, errSink := s.errSink }
          let code ← object complaint 2
          modify fun t => { t with status := code }) fun e => do
        restore
        throw e
      restore

/-- Runs a command under its name with arguments of its own. -/
def call (fuel : Nat) (tested : Bool) (args : List String) (body : Command) : Act Nat := do
  match fuel with
  | 0 => throw .overdue
  | fuel + 1 =>
    let s ← get
    set { s with arguments := args, locals := [] }
    tryCatch (run fuel tested body) fun e =>
      match e with
      | .back code => modify fun s => { s with status := code }
      | e => throw e
    modify fun t => { t with
      arguments := s.arguments, locals := s.locals
      vars := t.locals.foldl (fun vars name =>
        match s.vars.find? (·.name = name) with
        | some v => setVariable name v.value vars
        | none => vars.filter (·.name ≠ name)) t.vars }
    return (← get).status

/-- Starts a program of a name; gives the code that it ends with. -/
def start (fuel : Nat) (tested : Bool) (name : String) (args : List String) : Act Nat := do
  match fuel with
  | 0 => throw .overdue
  | fuel + 1 =>
    let s ← get
    match bareName name, s.commands.lookup name with
    | _, some body => call fuel tested args body
    | "sh", _ | "dash", _ => asChild (interpret fuel args)
    | "eval", _ => runText fuel tested (" ".intercalate args)
    | ".", _ =>
      let path := args.head?.getD ""
      match s.machine.disk.content? (← placeOf path) with
      | some content => runText fuel tested (decodeBytes content)
      | none =>
        let _ ← object (".: cannot open " ++ path ++ ": No such file") 2
        throw (.exit 2)
    | "exec", _ =>
      match args with
      | name :: args => throw (.exit (← start fuel true name args))
      | [] => return 0
    | "command", _ =>
      match args with
      | "-v" :: args => tellMeanings args
      | name :: args => start fuel tested name args
      | [] => return 0
    | "env", _ =>
      let isSetting (arg : String) : Bool := arg.contains '='
      let _ ← share (args.takeWhile isSetting)
      let code ← match args.dropWhile isSetting with
        | name :: args => start fuel tested name args
        | [] => printVariables []
      modify fun t => { t with vars := s.vars }
      return code
    | bare, _ =>
      let utility := if bare = name then ownUtility? name
        else (utility? false bare).orElse fun _ => filter? bare
      match utility with
      | some utility => utility args
      | none =>
        if name.contains '/' && (s.machine.disk.find? (← placeOf name)).isSome then
          object (name ++ ": Permission denied") 126
        else object (name ++ ": not found") 127

/-- Runs a text as a part of the script; gives the code that it ends with. -/
def runText (fuel : Nat) (tested : Bool) (text : String) : Act Nat := do
  match fuel with
  | 0 => throw .overdue
  | fuel + 1 =>
    match read text with
    | .ok command =>
      modify fun s => { s with status := 0 }
      run fuel tested command
      return (← get).status
    | .error complaint =>
      let _ ← object complaint 2
      throw (.exit 2)

/-- Runs a script as a process of its own; gives the code that it ends with. -/
def interpret (fuel : Nat) (args : List String) : Act Nat := do
  match fuel with
  | 0 => throw .overdue
  | fuel + 1 =>
    let (isStrict, args) := match args with
      | "-e" :: args => (true, args)
      | "-ec" :: args => (true, "-c" :: args)
      | args => (false, args)
    match ← scriptOf args with
    | .error complaint => complain complaint 2
    | .ok (script, name, arguments) =>
      match read script with
      | .error complaint => complain (name ++ ": 1: " ++ complaint) 2
      | .ok command =>
        isolated do
          modify fun s => { s with name, arguments, isStrict, status := 0, commands := []
                                   breaks := script.toList.count '\n'
                                   vars := s.vars.filter (·.isShared) }
          ended (run fuel false command)
          match (← get).atEnd with
          | some last =>
            let status := (← get).status
            let _ ← runText fuel true last
            modify fun s => { s with status }
          | none => pure ()
        return (← get).status

/-- Gives variables their values. -/
def assignAll (fuel : Nat) (settings : List (String × List Piece)) (isShared : Bool) :
    Act Unit := do
  match fuel, settings with
  | 0, _ => throw .overdue
  | _, [] => return ()
  | fuel + 1, (name, value) :: rest =>
    let value ← textOf fuel value
    assign name value
    if isShared then
      modify fun s => { s with vars := s.vars.map fun v =>
        if v.name = name then { v with isShared := true } else v }
    assignAll fuel rest isShared

/-- Runs the first arm whose condition succeeds. -/
def runArms (fuel : Nat) (tested : Bool) (arms : List (Command × Command)) (otherwise : Command) :
    Act Unit := do
  match fuel, arms with
  | 0, _ => throw .overdue
  | fuel + 1, [] =>
    modify fun s => { s with status := 0 }
    run fuel tested otherwise
  | fuel + 1, (condition, body) :: rest =>
    run fuel true condition
    if (← get).status = 0 then run fuel tested body else runArms fuel tested rest otherwise

/-- Runs the body of a loop; says whether the loop goes on. -/
def runBody (fuel : Nat) (tested : Bool) (body : Command) : Act Bool := do
  match fuel with
  | 0 => throw .overdue
  | fuel + 1 =>
    tryCatch (do
      run fuel tested body
      return true) fun e =>
      match e with
      | .leave (n + 2) => throw (.leave (n + 1))
      | .leave _ => return false
      | .next (n + 2) => throw (.next (n + 1))
      | .next _ => return true
      | e => throw e

/-- Runs a loop. -/
def runLoop (fuel : Nat) (tested expected : Bool) (condition body : Command) (last : Nat) :
    Act Unit := do
  match fuel with
  | 0 => throw .overdue
  | fuel + 1 =>
    run fuel true condition
    if ((← get).status = 0 : Bool) = expected then
      if ← runBody fuel tested body then
        runLoop fuel tested expected condition body (← get).status
      else modify fun s => { s with status := 0 }
    else modify fun s => { s with status := last }

/-- Runs the body of a loop for each word. -/
def runEach (fuel : Nat) (tested : Bool) (name : String) (body : Command) (words : List String) :
    Act Unit := do
  match fuel, words with
  | 0, _ => throw .overdue
  | _, [] => return ()
  | fuel + 1, word :: rest =>
    assign name word
    if ← runBody fuel tested body then runEach fuel tested name body rest

/-- Runs the first arm with a pattern that a word matches. -/
def runPick (fuel : Nat) (tested : Bool) (word : List Char)
    (arms : List (List (List Piece) × Command)) : Act Unit := do
  match fuel, arms with
  | 0, _ => throw .overdue
  | _, [] => modify fun s => { s with status := 0 }
  | fuel + 1, (patterns, body) :: rest =>
    if ← matchesAny fuel word patterns then
      modify fun s => { s with status := 0 }
      run fuel tested body
    else runPick fuel tested word rest

/-- Whether a word matches one of several patterns. -/
def matchesAny (fuel : Nat) (word : List Char) (patterns : List (List Piece)) : Act Bool := do
  match fuel, patterns with
  | 0, _ => throw .overdue
  | _, [] => return false
  | fuel + 1, pattern :: rest =>
    if (Pattern.ofWord (← markedOf fuel pattern).chars).accepts word then return true
    else matchesAny fuel word rest

/-- Runs commands one after the other. -/
def runAll (fuel : Nat) (tested : Bool) (commands : List Command) : Act Unit := do
  match fuel, commands with
  | 0, _ => throw .overdue
  | _, [] => return ()
  | fuel + 1, command :: rest =>
    run fuel tested command
    runAll fuel tested rest

/-- Runs a command; `tested` says that its success is looked at. -/
def run (fuel : Nat) (tested : Bool) (command : Command) : Act Unit := do
  match fuel with
  | 0 => throw .overdue
  | fuel + 1 =>
    match command with
    | .simple after settings words redirects =>
      modify fun s => { s with line := s.breaks - after + 1 }
      match ← expandAll fuel words with
      | [] =>
        assignAll fuel settings false
        let hasOutput := words.any (·.any Piece.isOutput) || settings.any (·.2.any Piece.isOutput)
        let last := (← get).status
        let code := if hasOutput then last else 0
        redirected fuel redirects (settle tested code)
      | ["exec"] =>
        match ← redirect fuel redirects with
        | none => settle tested 0
        | some complaint =>
          let code ← object complaint 2
          throw (.exit code)
      | name :: args =>
        let before := (← get).vars
        assignAll fuel settings true
        redirected fuel redirects do
          let code ← start fuel tested name args
          unless settings.isEmpty do modify fun s => { s with vars := before }
          settle tested code
    | .pipe first second =>
      let bytes ← captured (isolated (run fuel true first))
      let input := (← get).input
      modify fun s => { s with input := bytes }
      isolated (run fuel true second)
      modify fun s => { s with input }
      settle tested (← get).status
    | .both first second =>
      run fuel true first
      if (← get).status = 0 then run fuel tested second
    | .either first second =>
      run fuel true first
      if (← get).status ≠ 0 then run fuel tested second
    | .negated body =>
      run fuel true body
      modify fun s => { s with status := if s.status = 0 then 1 else 0 }
    | .sequence commands => runAll fuel tested commands
    | .apart body redirects =>
      redirected fuel redirects (isolated (run fuel tested body))
      settle tested (← get).status
    | .group body redirects => redirected fuel redirects (run fuel tested body)
    | .choose arms otherwise => runArms fuel tested arms otherwise
    | .loop expected condition body => runLoop fuel tested expected condition body 0
    | .each name words body =>
      let words ← match words with
        | some words => expandAll fuel words
        | none => pure (← get).arguments
      modify fun s => { s with status := 0 }
      runEach fuel tested name body words
    | .pick word arms => runPick fuel tested (← textOf fuel word).toList arms
    | .define name body =>
      modify fun s => { s with status := 0, commands := (name, body) :: s.commands }
    | .background body =>
      let input := (← get).input
      modify fun s => { s with input := .empty }
      isolated (run fuel true body)
      modify fun s => { s with input, status := 0 }

end

end Steward.Shell
