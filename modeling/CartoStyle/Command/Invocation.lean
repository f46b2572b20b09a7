set_option autoImplicit false

/-! # The command line

A command line names a command and gives its options and its one argument, in any order. It is read
from left to right: the first request for help or the first mistake ends the reading. After `--`
nothing is an option. -/

namespace CartoStyle

/-! ## Invocations -/

/-- How findings are printed. -/
inductive OutputFormat where
  | text
  | json
  deriving DecidableEq, Repr

/-- What a command line asks for. -/
inductive Invocation where
  | validateExpression (expression : String) (context : Option String) (format : OutputFormat)
  | validateStyle (file : String) (format : OutputFormat) (strict : Bool)
  | optimize (file : String) (output : Option String) (passes : List String) (report : Bool)
  | boundingBox (file : String) (summary : Bool)
  | callTool (name : String) (arguments : Option String)
  | listTools
  deriving DecidableEq, Repr

/-- Why a command line asks for nothing. -/
inductive UsageStop where
  | help
  | version
  | mistake
  deriving DecidableEq, Repr

namespace UsageStop

/-- The exit code. -/
def exitCode : UsageStop → Nat
  | .help => 0
  | .version => 0
  | .mistake => 2

end UsageStop

/-! ## Options -/

/-- An option: its long name, its letter, whether it takes a value and of which choices (none means
    any), and whether it may be given more than once. -/
structure CommandOption where
  name : String
  letter : Char
  takesValue : Bool := true
  choices : List String := []
  repeatable : Bool := false
  deriving DecidableEq, Repr

/-- A command: its name, whether it takes an argument, and its options. -/
structure Command where
  name : String
  takesArgument : Bool
  options : List CommandOption
  deriving DecidableEq, Repr

/-- What is given to a command: its argument, and its options with their values. An option without a
    value has the empty text. -/
structure Given where
  argument : Option String := none
  options : List (String × String) := []
  deriving DecidableEq, Repr

namespace Given

/-- The values of an option, in the order in which they are given. -/
def values (g : Given) (name : String) : List String :=
  (g.options.filter (·.1 == name)).map Prod.snd

/-- The value of an option. -/
def value? (g : Given) (name : String) : Option String := (g.values name).head?

/-- Whether an option is given. -/
def has (g : Given) (name : String) : Bool := g.options.any (·.1 == name)

/-- Give an option a value. -/
def addOption (g : Given) (o : CommandOption) (value : String) : Except UsageStop Given :=
  if g.has o.name && !o.repeatable then .error .mistake
  else if !o.choices.isEmpty && !o.choices.contains value then .error .mistake
  else .ok { g with options := g.options ++ [(o.name, value)] }

/-- Give the command its argument. -/
def addArgument (g : Given) (c : Command) (value : String) : Except UsageStop Given :=
  if c.takesArgument && g.argument.isNone then .ok { g with argument := some value }
  else .error .mistake

end Given

namespace Command

/-! ## Reading one word -/

/-- Whether a word can only be an option. A lone dash is an argument. -/
def isOptionWord (word : String) : Bool := word.startsWith "-" && word != "-"

/-- Read letters behind one dash. An option that still lacks its value is handed on. -/
def readLetters (c : Command) (given : Given) :
    List Char → Except UsageStop (Given × Option CommandOption)
  | [] => .ok (given, none)
  | letter :: rest =>
    if letter = 'h' then .error .help
    else
      match c.options.find? (·.letter == letter) with
      | none => .error .mistake
      | some o =>
        if o.takesValue then
          match rest with
          | [] => .ok (given, some o)
          | '=' :: value => (given.addOption o (String.ofList value)).map (·, none)
          | value => (given.addOption o (String.ofList value)).map (·, none)
        else
          match given.addOption o "" with
          | .ok given => c.readLetters given rest
          | .error stop => .error stop

/-- Read a long name, with what follows its equals sign if there is one. An option that still lacks
    its value is handed on. -/
def readName (c : Command) (given : Given) (name : String) (value : Option String) :
    Except UsageStop (Given × Option CommandOption) :=
  if name = "help" then .error (if value.isNone then .help else .mistake)
  else
    match c.options.find? (·.name == name), value with
    | none, _ => .error .mistake
    | some o, some value =>
      if o.takesValue then (given.addOption o value).map (·, none) else .error .mistake
    | some o, none =>
      if o.takesValue then .ok (given, some o) else (given.addOption o "").map (·, none)

/-- Split a long option at its first equals sign. -/
def splitName (chars : List Char) : String × Option String :=
  match chars.dropWhile (· != '=') with
  | [] => (String.ofList chars, none)
  | _ :: value => (String.ofList (chars.takeWhile (· != '=')), some (String.ofList value))

/-- Read a word that no option is waiting for. -/
def readWord (c : Command) (given : Given) (word : String) :
    Except UsageStop (Given × Option CommandOption) :=
  match word.toList with
  | '-' :: '-' :: rest =>
    let (name, value) := splitName rest
    c.readName given name value
  | '-' :: letter :: rest => c.readLetters given (letter :: rest)
  | _ => (given.addArgument c word).map (·, none)

/-! ## Reading all words -/

/-- Read words, of which the first is the value of a waiting option. -/
def read (c : Command) (waiting : Option CommandOption) (given : Given) :
    List String → Except UsageStop Given
  | [] => if waiting.isNone then .ok given else .error .mistake
  | word :: rest =>
    match waiting with
    | some o =>
      if isOptionWord word then .error .mistake
      else do c.read none (← given.addOption o word) rest
    | none =>
      if word = "--" then rest.foldlM (·.addArgument c ·) given
      else do
        let (given, waiting) ← c.readWord given word
        c.read waiting given rest

/-- Read what is given to a command. An argument that the command takes must be there. -/
def readAll (c : Command) (words : List String) : Except UsageStop Given := do
  let given ← c.read none {} words
  if c.takesArgument && given.argument.isNone then throw .mistake
  return given

/-! ## The commands -/

/-- The option for the format of findings. -/
def formatOption : CommandOption := { name := "format", letter := 'f', choices := ["text", "json"] }

def validateExpression : Command :=
  ⟨"validate-expr", true, [{ name := "context", letter := 'c' }, formatOption]⟩

def validateStyle : Command :=
  ⟨"validate-style", true,
    [formatOption, { name := "warn-error", letter := 'W', takesValue := false }]⟩

def optimize : Command :=
  ⟨"optimize", true,
    [{ name := "output", letter := 'o' }, { name := "pass", letter := 'p', repeatable := true },
      { name := "report", letter := 'r', takesValue := false }]⟩

def boundingBox : Command :=
  ⟨"bbox", true, [{ name := "summary", letter := 's', takesValue := false }]⟩

def callTool : Command := ⟨"tool", true, [{ name := "args", letter := 'a' }]⟩

def listTools : Command := ⟨"tools", false, []⟩

/-- Every command. -/
def all : List Command :=
  [validateExpression, validateStyle, optimize, boundingBox, callTool, listTools]

/-- The version of the program. -/
def version : String := "1.0.0"

/-- The command of a name. -/
def ofName? (name : String) : Option Command := all.find? (·.name == name)

end Command

/-! ## Reading a command line -/

namespace Invocation

/-- The format that is asked for. -/
def formatOf (g : Given) : OutputFormat := if g.value? "format" == some "json" then .json else .text

/-- What a command with the given argument and options asks for. -/
def ofGiven (c : Command) (g : Given) : Invocation :=
  let argument := g.argument.getD ""
  if c = Command.validateExpression then
    .validateExpression argument (g.value? "context") (formatOf g)
  else if c = Command.validateStyle then
    .validateStyle argument (formatOf g) (g.has "warn-error")
  else if c = Command.optimize then
    .optimize argument (g.value? "output") (g.values "pass") (g.has "report")
  else if c = Command.boundingBox then .boundingBox argument (g.has "summary")
  else if c = Command.callTool then .callTool argument (g.value? "args")
  else .listTools

/-- Read what follows the word `help`: the name of a command, or nothing. -/
def readHelp : List String → UsageStop
  | [] => .help
  | [name] => if name = "help" || (Command.ofName? name).isSome then .help else .mistake
  | _ => .mistake

/-- Read a word in front of any command. -/
def readEarly (word : String) : UsageStop :=
  match word.toList with
  | '-' :: '-' :: rest =>
    if rest = "help".toList then .help
    else if rest = "version".toList then .version
    else .mistake
  | '-' :: 'h' :: _ => .help
  | '-' :: 'V' :: _ => .version
  | _ => .mistake

/-- Read a command line. -/
def ofWords : List String → Except UsageStop Invocation
  | [] => .error .mistake
  | word :: rest =>
    if word = "help" then .error (readHelp rest)
    else
      match Command.ofName? word with
      | some c => (c.readAll rest).map (ofGiven c)
      | none => .error (readEarly word)

end Invocation

end CartoStyle
