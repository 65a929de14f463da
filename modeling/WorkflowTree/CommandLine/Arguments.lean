/-!
# Arguments

A command line is read word by word. In front of the command stand the options of the program;
behind it stand those of the command, and what the command works on. The options `verbose` and
`config` may stand on either side, once on each; behind the command they count more.
-/

namespace WorkflowTree.CommandLine

/-- The form in which a workflow is dumped. -/
inductive DumpFormat
  | json
  | yaml
  deriving DecidableEq, Repr, Inhabited

/-- What the program is asked to do. -/
inductive Command
  /-- Check files. Without arguments, those of the usual directory. -/
  | check (arguments : List String)
  /-- Print what one file says. -/
  | dump (file : String) (format : DumpFormat)
  deriving DecidableEq, Repr

/-- A command and the options of the program. -/
structure Invocation where
  verbose : Bool
  /-- The file with the policy, if one is given. -/
  config? : Option String
  command : Command
  deriving DecidableEq, Repr

/-- Why a command line cannot be understood. -/
inductive UsageFlaw
  | unknownOption (text : String)
  | missingValue (option : String)
  | unneededValue (option : String)
  | repeatedOption (option : String)
  | badValue (option value : String)
  | missingCommand
  | unknownCommand (text : String)
  | missingFile
  | surplus (text : String)
  deriving DecidableEq, Repr

/-- The flaw in words. -/
def UsageFlaw.message : UsageFlaw → String
  | unknownOption text => s!"unexpected argument '{text}'"
  | missingValue option => s!"a value is required for '{option}'"
  | unneededValue option => s!"no value is allowed for '{option}'"
  | repeatedOption option => s!"'{option}' cannot be used multiple times"
  | badValue option value => s!"invalid value '{value}' for '{option}'"
  | missingCommand => "a command is required"
  | unknownCommand text => s!"unrecognized command '{text}'"
  | missingFile => "a file is required"
  | surplus text => s!"unexpected argument '{text}'"

/-- What keeps a command line from being read to its end. -/
inductive Interruption
  | help
  | version
  | flaw (f : UsageFlaw)
  deriving DecidableEq, Repr

/-- The options. -/
inductive OptionName
  | help
  | version
  | verbose
  | config
  | format
  deriving DecidableEq, Repr

/-- The options that are written with a value. -/
def OptionName.takesValue : OptionName → Bool
  | config | format => true
  | help | version | verbose => false

/-- The long and the short form of an option. -/
def OptionName.forms : OptionName → String × Char
  | help => ("help", 'h')
  | version => ("version", 'V')
  | verbose => ("verbose", 'v')
  | config => ("config", 'c')
  | format => ("format", 'f')

/-- An option as it is written in full. -/
def OptionName.text (o : OptionName) : String := "--" ++ o.forms.1

/-- Where in a command line a word stands. -/
inductive Level
  /-- In front of the command. -/
  | program
  | check
  | dump
  /-- Behind the command for help. -/
  | help
  deriving DecidableEq, Repr

/-- The options that a level has. -/
def Level.options : Level → List OptionName
  | program => [.help, .version, .verbose, .config]
  | check => [.help, .verbose, .config]
  | dump => [.help, .verbose, .config, .format]
  | help => []

/-- What options said. -/
structure Given where
  verbose : Bool := false
  config? : Option String := none
  format? : Option DumpFormat := none
  deriving DecidableEq, Repr

/-- How far a command line was read. -/
structure Progress where
  level : Level := .program
  /-- What options in front of the command said. -/
  outer : Given := {}
  /-- What options of the level said. -/
  given : Given := {}
  /-- An option that waits for its value. -/
  waiting? : Option OptionName := none
  /-- No options follow. -/
  optionsEnded : Bool := false
  /-- What the command works on. -/
  operands : List String := []
  deriving DecidableEq, Repr

namespace Progress

/-- Sets an option that has no value. -/
def flag (s : Progress) (o : OptionName) : Except Interruption Progress :=
  match o with
  | .help => .error .help
  | .version => .error .version
  | _ =>
    if s.given.verbose then .error (.flaw (.repeatedOption o.text))
    else .ok { s with given.verbose := true }

/-- Sets an option to a value. -/
def set (s : Progress) (o : OptionName) (value : String) : Except Interruption Progress :=
  let s := { s with waiting? := none }
  match o with
  | .format =>
    let format? : Option DumpFormat := match value with
      | "json" => some .json
      | "yaml" => some .yaml
      | _ => none
    match format? with
    | none => .error (.flaw (.badValue o.text value))
    | some format =>
      if s.given.format?.isSome then .error (.flaw (.repeatedOption o.text))
      else .ok { s with given.format? := some format }
  | _ =>
    if value = "" then .error (.flaw (.badValue o.text value))
    else if s.given.config?.isSome then .error (.flaw (.repeatedOption o.text))
    else .ok { s with given.config? := some value }

/-- A word behind two dashes: an option, perhaps with an equals sign and a value. -/
def long (s : Progress) (word : List Char) : Except Interruption Progress :=
  let name := String.ofList (word.takeWhile (· != '='))
  let value? : Option String := match word.dropWhile (· != '=') with
    | _ :: value => some (.ofList value)
    | [] => none
  match s.level.options.find? fun o => o.forms.1 == name with
  | none => .error (.flaw (.unknownOption (.ofList ('-' :: '-' :: word))))
  | some o =>
    match value?, o.takesValue with
    | none, false => s.flag o
    | none, true => .ok { s with waiting? := some o }
    | some _, false => .error (.flaw (.unneededValue o.text))
    | some value, true => s.set o value

/-- A word behind one dash: options of one letter. The first that takes a value has the rest
of the word, without an equals sign, or waits for the next word. -/
def short : Progress → List Char → Except Interruption Progress
  | s, [] => .ok s
  | s, c :: cs =>
    match s.level.options.find? fun o => o.forms.2 == c with
    | none => .error (.flaw (.unknownOption (.ofList ['-', c])))
    | some o =>
      if o.takesValue then
        match cs with
        | [] => .ok { s with waiting? := some o }
        | '=' :: value => s.set o (.ofList value)
        | value => s.set o (.ofList value)
      else do short (← s.flag o) cs

/-- A word that is no option: the command, or what it works on. -/
def operand (s : Progress) (word : String) : Except Interruption Progress :=
  let enter (level : Level) : Progress := { s with level, outer := s.given, given := {} }
  match s.level with
  | .program =>
    if s.optionsEnded then .error (.flaw (.surplus word))
    else match word with
      | "check" => .ok (enter .check)
      | "dump" => .ok (enter .dump)
      | "help" => .ok (enter .help)
      | _ => .error (.flaw (.unknownCommand word))
  | .check => .ok { s with operands := s.operands ++ [word] }
  | .dump =>
    if !s.operands.isEmpty then .error (.flaw (.surplus word))
    else if word = "" then .error (.flaw .missingFile)
    else .ok { s with operands := [word] }
  | .help =>
    if s.operands.isEmpty && ["check", "dump", "help"].contains word then
      .ok { s with operands := [word] }
    else .error (.flaw (.unknownCommand word))

/-- Reads one word. -/
def step (s : Progress) (word : String) : Except Interruption Progress :=
  if s.optionsEnded || s.level = .help then s.operand word
  else
    let isOption := word.toList.head? = some '-' && word != "-"
    match s.waiting? with
    | some o => if isOption then .error (.flaw (.missingValue o.text)) else s.set o word
    | none =>
      match word.toList with
      | ['-'] => s.operand word
      | ['-', '-'] => .ok { s with optionsEnded := true }
      | '-' :: '-' :: cs => s.long cs
      | '-' :: cs => s.short cs
      | _ => s.operand word

/-- The end of the command line. -/
def finish (s : Progress) : Except Interruption Invocation :=
  let invoke (command : Command) : Invocation :=
    { verbose := s.outer.verbose || s.given.verbose,
      config? := s.given.config?.or s.outer.config?, command }
  match s.waiting? with
  | some o => .error (.flaw (.missingValue o.text))
  | none =>
    match s.level, s.operands with
    | .program, _ => .error (.flaw .missingCommand)
    | .help, _ => .error .help
    | .check, operands => .ok (invoke (.check operands))
    | .dump, file :: _ => .ok (invoke (.dump file (s.given.format?.getD .json)))
    | .dump, [] => .error (.flaw .missingFile)

end Progress

/-- Reads a command line. -/
def Invocation.read (words : List String) : Except Interruption Invocation := do
  (← words.foldlM Progress.step {}).finish

end WorkflowTree.CommandLine
