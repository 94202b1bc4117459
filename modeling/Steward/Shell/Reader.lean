import Steward.Shell.Script
import Steward.Text.Search

/-!
# Reading scripts

Commands are separated by line breaks and semicolons, joined by `|`, `&&` and `||`, and grouped by
parentheses, braces, `if`, `case`, `while`, `until` and `for`. A word ends at a blank or at a
character that joins commands, unless it is quoted.
-/

namespace Steward.Shell

open Text

/-- Whether a character ends a word. -/
def isMeta (c : Char) : Bool :=
  c = ' ' || c = '\t' || c = '\n' || c = ';' || c = '&' || c = '|' || c = '<' || c = '>' ||
    c = '(' || c = ')'

/-- The text after blanks, continued lines, and a comment. -/
def skipBlanks : List Char → List Char
  | ' ' :: rest | '\t' :: rest => skipBlanks rest
  | '\\' :: '\n' :: rest => skipBlanks rest
  | '#' :: rest => rest.dropWhile (· ≠ '\n')
  | s => s

/-- The text after blanks, comments and line breaks. -/
def skipLines : (fuel : Nat) → List Char → List Char
  | 0, s => s
  | fuel + 1, s =>
    match skipBlanks s with
    | '\n' :: rest => skipLines fuel rest
    | s => s

/-- Whether a name of a variable may hold a character. -/
def isNameChar (c : Char) : Bool := c.isAlphanum || c = '_'

/-- Whether a text is the name of a variable. -/
def isName (s : List Char) : Bool :=
  !s.isEmpty && s.all isNameChar && !(s.head?.any Char.isDigit)

/-- Whether a character names a value that the interpreter keeps itself. -/
def isSpecial (c : Char) : Bool :=
  c = '*' || c = '@' || c = '#' || c = '?' || c = '$' || c = '!' || c = '-'

/-- The name of the value after a dollar sign, and the rest. -/
def readParameter (s : List Char) : Option (String × List Char) :=
  match s with
  | c :: rest =>
    if isSpecial c || c.isDigit then some (c.toString, rest)
    else
      let name := s.takeWhile isNameChar
      if name.isEmpty then none else some (String.ofList name, s.drop name.length)
  | [] => none

/-- The name of the value in braces, and the rest. -/
def readBraced (s : List Char) : Option (String × List Char) :=
  let name := s.takeWhile isNameChar
  if name.isEmpty then readParameter s else some (String.ofList name, s.drop name.length)

/-- The name of the value in braces whose length is meant, and the rest. -/
def lengthOf? (s : List Char) : Option (String × List Char) :=
  match after? ['#'] s with
  | some rest =>
    match readBraced rest with
    | some (name, '}' :: rest) => some (name, rest)
    | _ => none
  | none => none

/-- The use that a mark behind a name in braces means. -/
def use? (mark : Char) : Option Use :=
  match mark with
  | '-' => some .fallback
  | '=' => some .assigned
  | '+' => some .alternative
  | '?' => some .required
  | _ => none

/-- The unquoted word at the start, by which reserved words are known. -/
def bareWord (s : List Char) : String := String.ofList (s.takeWhile (!isMeta ·))

/-- The words that end a list of commands. -/
def closers : List String := ["then", "else", "elif", "fi", "do", "done", "esac", "\x7d"]

/-- The rest after a reserved word, if it comes next. -/
def afterWord? (word : String) (s : List Char) : Option (List Char) :=
  let s := skipLines s.length s
  if bareWord s = word then some (s.drop word.length) else none

/-- The setting that a word is: its first part is a name and an equals sign. -/
def setting? (word : List Piece) : Option (String × List Piece) :=
  match word with
  | .plain false s :: rest =>
    match cut? ['='] s.toList with
    | some (name, value) =>
      if isName name then some (String.ofList name, .plain false (String.ofList value) :: rest)
      else none
    | none => none
  | _ => none

/-- Puts a character in front of the parts of a word. -/
def consPlain (quoted : Bool) (c : Char) (pieces : List Piece) : List Piece :=
  match pieces with
  | .plain q s :: rest =>
    if q = quoted then .plain q (String.ofList (c :: s.toList)) :: rest
    else .plain quoted c.toString :: pieces
  | _ => .plain quoted c.toString :: pieces

/-- What stands between grave accents, without the backslashes that protect characters in it. -/
def readAccents : List Char → Option (List Char × List Char)
  | [] => none
  | '`' :: rest => some ([], rest)
  | '\\' :: c :: rest =>
    (readAccents rest).map fun (s, rest) =>
      (if c = '`' || c = '\\' || c = '$' then c :: s else '\\' :: c :: s, rest)
  | c :: rest => (readAccents rest).map fun (s, rest) => (c :: s, rest)

/-- The stream that a redirection is for, where a digit right before it says so. -/
def readStream (s : List Char) : Option (Nat × Char × List Char) :=
  match s with
  | d :: c :: rest =>
    if d.isDigit && (c = '<' || c = '>') then some (d.toNat - '0'.toNat, c, rest)
    else if d = '<' then some (0, d, c :: rest)
    else if d = '>' then some (1, d, c :: rest)
    else none
  | _ => none

/-- A character that no script holds: it closes a text that was cut out of one. -/
def endMark : Char := '\x00'

/-- The text of a formula up to the two parentheses that close it, and the rest. -/
def formulaText? : (depth : Nat) → List Char → Option (List Char × List Char)
  | _, [] => none
  | 0, ')' :: rest =>
    match rest with
    | ')' :: rest => some ([], rest)
    | _ => none
  | depth + 1, ')' :: rest => (formulaText? depth rest).map fun (s, rest) => (')' :: s, rest)
  | depth, '(' :: rest => (formulaText? (depth + 1) rest).map fun (s, rest) => ('(' :: s, rest)
  | depth, c :: rest => (formulaText? depth rest).map fun (s, rest) => (c :: s, rest)

/-- The lines before one that is the given word, and what follows that one; tabs at the start of
lines are left out if `dropTabs`. -/
def linesBefore (word : List Char) (dropTabs : Bool) (s : List Char) : List Char × List Char :=
  let bare (line : List Char) : List Char := if dropTabs then line.dropWhile (· = '\t') else line
  let lines := splitOn '\n' s
  let body := lines.takeWhile (bare · ≠ word)
  ((body.map (bare · ++ ['\n'])).flatten, List.intercalate ['\n'] (lines.drop (body.length + 1)))

/-- The text of a word as it stands, and whether a part of it was quoted. -/
def plainWord (word : List Piece) : List Char × Bool :=
  word.foldl (fun (text, anyQuoted) piece =>
    match piece with
    | .plain quoted s => (text ++ s.toList, anyQuoted || quoted)
    | _ => (text, anyQuoted)) ([], false)

mutual

/-- The part of a word after a dollar sign; one that names nothing stands for itself. -/
def readDollar (fuel : Nat) (quoted : Bool) (s : List Char) : Option (Piece × List Char) :=
  match fuel, s with
  | 0, _ => none
  | fuel + 1, '(' :: rest =>
    match (after? ['('] rest).bind (formulaText? 0) with
    | some (text, rest) => do
      let (pieces, _) ← readInner fuel endMark (text ++ [endMark])
      return (.formula quoted pieces, rest)
    | none => do
      let (script, rest) ← readList fuel rest
      return (.output quoted script, ← after? [')'] (skipLines rest.length rest))
  | fuel + 1, '{' :: rest =>
    match lengthOf? rest with
    | some (name, rest) => some (.parameter quoted name .length false [], rest)
    | none => do
      let (name, rest) ← readBraced rest
      let matched (use : Use) (rest : List Char) : Option (Piece × List Char) := do
        let (pattern, rest) ← readWord fuel (· = '}') rest
        return (.parameter quoted name use false pattern, ← after? ['}'] rest)
      match rest with
      | '}' :: rest => return (.parameter quoted name .fallback false [], rest)
      | '%' :: '%' :: rest => matched (.withoutEnd true) rest
      | '%' :: rest => matched (.withoutEnd false) rest
      | '#' :: '#' :: rest => matched (.withoutStart true) rest
      | '#' :: rest => matched (.withoutStart false) rest
      | rest =>
        let orEmpty := startsWith [':'] rest
        match (after? [':'] rest).getD rest with
        | mark :: rest =>
          let use ← use? mark
          let (word, rest) ← readInner fuel '}' rest
          return (.parameter quoted name use orEmpty word, rest)
        | [] => none
  | _ + 1, s =>
    match readParameter s with
    | some (name, rest) => some (.parameter quoted name .fallback false [], rest)
    | none => some (.plain quoted "$", s)

/-- The parts of a word up to a closing quote or brace. -/
def readInner (fuel : Nat) (close : Char) (s : List Char) : Option (List Piece × List Char) :=
  match fuel, s with
  | 0, _ => none
  | _, [] => none
  | fuel + 1, c :: rest =>
    if c = close then some ([], rest)
    else if c = '\\' then
      match rest with
      | '\n' :: rest => readInner fuel close rest
      | e :: rest => do
        let (pieces, rest) ← readInner fuel close rest
        if e = '$' || e = '`' || e = '\\' || e = close || (e = '"' && close ≠ endMark) then
          return (consPlain true e pieces, rest)
        else return (consPlain true '\\' (consPlain true e pieces), rest)
      | [] => none
    else if c = '$' then do
      let (piece, rest) ← readDollar fuel true rest
      let (pieces, rest) ← readInner fuel close rest
      return (piece :: pieces, rest)
    else if c = '`' then do
      let (inner, rest) ← readAccents rest
      let (script, _) ← readList fuel inner
      let (pieces, rest) ← readInner fuel close rest
      return (.output true script :: pieces, rest)
    else do
      let (pieces, rest) ← readInner fuel close rest
      return (consPlain true c pieces, rest)

/-- The parts of a word, up to a character that ends it. -/
def readWord (fuel : Nat) (ends : Char → Bool) (s : List Char) :
    Option (List Piece × List Char) :=
  match fuel, s with
  | 0, _ => none
  | _, [] => some ([], [])
  | fuel + 1, c :: rest =>
    if ends c then some ([], s)
    else if c = '\'' then do
      let (quoted, rest) ← cut? ['\''] rest
      let (pieces, rest) ← readWord fuel ends rest
      return (.plain true (String.ofList quoted) :: pieces, rest)
    else if c = '"' then do
      let (inner, rest) ← readInner fuel '"' rest
      let (pieces, rest) ← readWord fuel ends rest
      match inner with
      | [.parameter _ "@" _ _ _] => return (inner ++ pieces, rest)
      | _ => return (.plain true "" :: inner ++ pieces, rest)
    else if c = '\\' then
      match rest with
      | '\n' :: rest => readWord fuel ends rest
      | e :: rest => do
        let (pieces, rest) ← readWord fuel ends rest
        return (.plain true e.toString :: pieces, rest)
      | [] => some ([.plain true "\\"], [])
    else if c = '$' then do
      let (piece, rest) ← readDollar fuel false rest
      let (pieces, rest) ← readWord fuel ends rest
      return (piece :: pieces, rest)
    else if c = '`' then do
      let (inner, rest) ← readAccents rest
      let (script, _) ← readList fuel inner
      let (pieces, rest) ← readWord fuel ends rest
      return (.output false script :: pieces, rest)
    else do
      let (pieces, rest) ← readWord fuel ends rest
      return (consPlain false c pieces, rest)

/-- The redirection that comes next, if one does. -/
def readRedirect (fuel : Nat) (s : List Char) : Option (Redirect × List Char) :=
  match fuel with
  | 0 => none
  | fuel + 1 =>
    match readStream s with
    | none => none
    | some (stream, mark, rest) => do
      let (word, rest) ← match mark, rest with
        | '>', '>' :: rest => readTarget fuel (.file stream .append) rest
        | '>', '|' :: rest => readTarget fuel (.file stream .write) rest
        | '<', '<' :: rest => readHere fuel stream rest
        | _, '&' :: rest => readTarget fuel (.stream stream) rest
        | '>', rest => readTarget fuel (.file stream .write) rest
        | _, rest => readTarget fuel (.file stream .read) rest
      return (word, rest)

/-- A redirection to the word that comes next. -/
def readTarget (fuel : Nat) (make : List Piece → Redirect) (s : List Char) :
    Option (Redirect × List Char) :=
  match fuel with
  | 0 => none
  | fuel + 1 => do
    let (word, rest) ← readWord fuel isMeta (skipBlanks s)
    if word.isEmpty then none else return (make word, rest)

/-- What is to be read, from the next line on up to a line that is the word that comes next. -/
def readHere (fuel : Nat) (stream : Nat) (s : List Char) : Option (Redirect × List Char) :=
  match fuel with
  | 0 => none
  | fuel + 1 => do
    let (dropTabs, s) := match s with
      | '-' :: s => (true, s)
      | s => (false, s)
    let (word, rest) ← readWord fuel isMeta (skipBlanks s)
    let (word, quoted) := plainWord word
    let line := rest.takeWhile (· ≠ '\n')
    let (content, after) := linesBefore word dropTabs (rest.drop (line.length + 1))
    let rest := line ++ '\n' :: after
    if quoted then return (.here stream [.plain true (String.ofList content)], rest)
    else
      let (pieces, _) ← readInner fuel endMark (content ++ [endMark])
      return (.here stream pieces, rest)

/-- The redirections that come next. -/
def readRedirects (fuel : Nat) (s : List Char) : Option (List Redirect × List Char) :=
  match fuel with
  | 0 => none
  | fuel + 1 =>
    let s := skipBlanks s
    if (readStream s).isSome then do
      let (redirect, rest) ← readRedirect fuel s
      let (redirects, rest) ← readRedirects fuel rest
      return (redirect :: redirects, rest)
    else some ([], s)

/-- Settings, words and redirections up to the end of a command. Settings stand only before the
first word. -/
def readSimple (fuel : Nat) (after : Nat) (settings : List (String × List Piece))
    (words : List (List Piece)) (redirects : List Redirect) (s : List Char) :
    Option (Command × List Char) :=
  match fuel with
  | 0 => none
  | fuel + 1 =>
    let s := skipBlanks s
    if (readStream s).isSome then do
      let (redirect, rest) ← readRedirect fuel s
      readSimple fuel after settings words (redirect :: redirects) rest
    else if s.isEmpty || s.head?.any isMeta then
      if settings.isEmpty && words.isEmpty && redirects.isEmpty then none
      else some (.simple after settings.reverse words.reverse redirects.reverse, s)
    else do
      let (word, rest) ← readWord fuel isMeta s
      match setting? word, words with
      | some setting, [] => readSimple fuel after (setting :: settings) words redirects rest
      | _, _ => readSimple fuel after settings (word :: words) redirects rest

/-- The arms of a choice after `if` or `elif`, and what to do otherwise, up to `fi`. -/
def readArms (fuel : Nat) (s : List Char) :
    Option ((List (Command × Command) × Command) × List Char) :=
  match fuel with
  | 0 => none
  | fuel + 1 => do
    let (condition, rest) ← readList fuel s
    let (body, rest) ← readList fuel (← afterWord? "then" rest)
    match afterWord? "elif" rest, afterWord? "else" rest with
    | some rest, _ =>
      let ((arms, otherwise), rest) ← readArms fuel rest
      return (((condition, body) :: arms, otherwise), rest)
    | none, some rest =>
      let (otherwise, rest) ← readList fuel rest
      return (([(condition, body)], otherwise), ← afterWord? "fi" rest)
    | none, none => return (([(condition, body)], .sequence []), ← afterWord? "fi" rest)

/-- The body of a loop, between `do` and `done`. -/
def readBody (fuel : Nat) (s : List Char) : Option (Command × List Char) :=
  match fuel with
  | 0 => none
  | fuel + 1 => do
    let s := match skipBlanks s with
      | ';' :: rest => rest
      | s => s
    let (body, rest) ← readList fuel (← afterWord? "do" s)
    return (body, ← afterWord? "done" rest)

/-- The words of a loop over words. -/
def readWords (fuel : Nat) (s : List Char) : Option (List (List Piece) × List Char) :=
  match fuel with
  | 0 => none
  | fuel + 1 =>
    let s := skipBlanks s
    if s.isEmpty || s.head?.any isMeta then some ([], s)
    else do
      let (word, rest) ← readWord fuel isMeta s
      let (words, rest) ← readWords fuel rest
      return (word :: words, rest)

/-- The patterns of an arm, up to a closing parenthesis. -/
def readPatterns (fuel : Nat) (s : List Char) : Option (List (List Piece) × List Char) :=
  match fuel with
  | 0 => none
  | fuel + 1 => do
    let (pattern, rest) ← readWord fuel isMeta (skipBlanks s)
    match skipBlanks rest with
    | '|' :: rest =>
      let (patterns, rest) ← readPatterns fuel rest
      return (pattern :: patterns, rest)
    | ')' :: rest => return ([pattern], rest)
    | _ => none

/-- Arms with patterns, up to `esac`. -/
def readCases (fuel : Nat) (s : List Char) :
    Option (List (List (List Piece) × Command) × List Char) :=
  match fuel with
  | 0 => none
  | fuel + 1 =>
    match afterWord? "esac" s with
    | some rest => some ([], rest)
    | none => do
      let s := skipLines s.length s
      let (patterns, rest) ← readPatterns fuel ((after? ['('] s).getD s)
      let (body, rest) ← readList fuel rest
      match after? [';', ';'] (skipLines rest.length rest) with
      | some rest =>
        let (arms, rest) ← readCases fuel rest
        return ((patterns, body) :: arms, rest)
      | none => return ([(patterns, body)], ← afterWord? "esac" rest)

/-- One command. -/
def readCommand (fuel : Nat) (s : List Char) : Option (Command × List Char) :=
  match fuel with
  | 0 => none
  | fuel + 1 =>
    let grouped (r : Option (Command × List Char)) : Option (Command × List Char) := do
      let (body, rest) ← r
      let (redirects, rest) ← readRedirects fuel rest
      return (if redirects.isEmpty then body else .group body redirects, rest)
    let word := bareWord s
    let rest := s.drop word.length
    if s.head? = some '(' then do
      let (body, rest) ← readList fuel s.tail
      let rest ← after? [')'] (skipLines rest.length rest)
      let (redirects, rest) ← readRedirects fuel rest
      return (.apart body redirects, rest)
    else if word = "\x7b" then grouped do
      let (body, rest) ← readList fuel rest
      return (body, ← afterWord? "\x7d" rest)
    else if word = "if" then grouped do
      let ((arms, otherwise), rest) ← readArms fuel rest
      return (.choose arms otherwise, rest)
    else if word = "while" || word = "until" then grouped do
      let (condition, rest) ← readList fuel rest
      let (body, rest) ← readBody fuel rest
      return (.loop (word = "while") condition body, rest)
    else if word = "for" then grouped do
      let s := skipBlanks rest
      let name := s.takeWhile isNameChar
      let rest := s.drop name.length
      if !isName name then none
      else
        let (words, rest) ← match afterWord? "in" rest with
          | some rest => (readWords fuel rest).map fun (words, rest) => (some words, rest)
          | none => some (none, rest)
        let (body, rest) ← readBody fuel rest
        return (.each (String.ofList name) words body, rest)
    else if word = "case" then grouped do
      let (subject, rest) ← readWord fuel isMeta (skipBlanks rest)
      let (arms, rest) ← readCases fuel (← afterWord? "in" rest)
      return (.pick subject arms, rest)
    else
      match (after? ['('] (skipBlanks rest)).bind fun rest => after? [')'] (skipBlanks rest) with
      | some rest => do
        if !isName word.toList then none
        let (body, rest) ← readCommand fuel (skipLines rest.length rest)
        return (.define word body, rest)
      | none => readSimple fuel (s.count '\n') [] [] [] s

/-- Commands joined so that each reads what the one before prints. -/
def readPipe (fuel : Nat) (s : List Char) : Option (Command × List Char) :=
  match fuel with
  | 0 => none
  | fuel + 1 =>
    match afterWord? "!" s with
    | some rest => do
      let (body, rest) ← readPipe fuel (skipBlanks rest)
      return (.negated body, rest)
    | none => do
      let (first, rest) ← readCommand fuel s
      match skipBlanks rest with
      | '|' :: '|' :: _ => return (first, rest)
      | '|' :: rest =>
        let (second, rest) ← readPipe fuel (skipLines rest.length rest)
        return (.pipe first second, rest)
      | rest => return (first, rest)

/-- Commands that depend on each other's success, after one that is already read. -/
def readLogic (fuel : Nat) (first : Command) (s : List Char) : Option (Command × List Char) :=
  match fuel with
  | 0 => none
  | fuel + 1 =>
    match skipBlanks s with
    | '&' :: '&' :: rest => do
      let (second, rest) ← readPipe fuel (skipLines rest.length rest)
      readLogic fuel (.both first second) rest
    | '|' :: '|' :: rest => do
      let (second, rest) ← readPipe fuel (skipLines rest.length rest)
      readLogic fuel (.either first second) rest
    | s => some (first, s)

/-- The commands up to the end, a closing parenthesis, or a word that ends a list. -/
def readList (fuel : Nat) (s : List Char) : Option (Command × List Char) :=
  match fuel with
  | 0 => none
  | fuel + 1 =>
    let s := skipLines s.length s
    if s.isEmpty || s.head? = some ')' || startsWith [';', ';'] s ||
        closers.contains (bareWord s) then
      some (.sequence [], s)
    else do
      let (first, rest) ← readPipe fuel s
      let (command, rest) ← readLogic fuel first rest
      let followed (command : Command) (rest : List Char) : Option (Command × List Char) := do
        let (more, rest) ← readList fuel rest
        match more with
        | .sequence commands => return (.sequence (command :: commands), rest)
        | more => return (.sequence [command, more], rest)
      match rest with
      | ';' :: ';' :: _ => return (.sequence [command], rest)
      | ';' :: rest | '\n' :: rest => followed command rest
      | '&' :: rest => followed (.background command) rest
      | rest => return (.sequence [command], rest)

end

/-- Whether a quote is left open in a script. -/
def hasOpenQuote : (quote : Option Char) → List Char → Bool
  | quote, [] => quote.isSome
  | none, '\\' :: _ :: rest => hasOpenQuote none rest
  | none, c :: rest => hasOpenQuote (if c = '"' || c = '\'' then some c else none) rest
  | some '"', '\\' :: _ :: rest => hasOpenQuote (some '"') rest
  | some q, c :: rest => hasOpenQuote (if c = q then none else some q) rest

/-- The complaint about a script that goes on with what fits nowhere. -/
def unexpected (rest : List Char) : String :=
  let word := match rest with
    | ';' :: ';' :: _ => ";;"
    | c :: _ => if isMeta c then c.toString else bareWord rest
    | [] => ""
  "Syntax error: \"" ++ word ++ "\" unexpected"

/-- The command that a script is, or the complaint that it is none. -/
def read (script : String) : Except String Command :=
  let chars := script.toList
  match readList (8 * chars.length + 16) chars with
  | some (command, rest) =>
    let rest := skipLines rest.length rest
    if rest.isEmpty then .ok command else .error (unexpected rest)
  | none =>
    if hasOpenQuote none chars then .error "Syntax error: Unterminated quoted string"
    else .error "Syntax error"

end Steward.Shell
