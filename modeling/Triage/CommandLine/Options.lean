import Triage.Settings.Environment
import Triage.Text.Search

/-!
# Options

How the words of a command line are read. A word that begins with two hyphens
names an option, one that begins with a single hyphen holds options of one letter
each. An option that takes a value has it behind an equals sign, in the rest of
its word or in the next one. A word of two hyphens ends the options.
-/

namespace Triage.CommandLine

inductive Takes where
  | nothing
  | text
  | path
  /-- Texts between commas; the option may be given repeatedly. -/
  | texts
  deriving DecidableEq, Repr

structure Opt where
  name : String
  letter : Option Char := none
  takes : Takes := .nothing
  /-- The variable that stands for the option where it is not given. -/
  envName : Option String := none
  deriving DecidableEq, Repr

inductive Stop where
  | usage
  | help
  | version
  deriving DecidableEq, Repr

structure Grammar where
  options : List Opt
  /-- The most words that may stand besides options. -/
  operands : Nat := 0
  commands : List String := []
  hasVersion : Bool := false

structure Given where
  options : List (String × String) := []
  operands : List String := []
  command : Option (String × List String) := none
  deriving DecidableEq, Repr

namespace Given

def values (g : Given) (name : String) : List String :=
  (g.options.filter (·.1 == name)).map (·.2)

def has (g : Given) (name : String) : Bool := g.options.any (·.1 == name)

end Given

namespace Grammar

def ofName? (g : Grammar) (name : String) : Option Opt := g.options.find? (·.name == name)

def ofLetter? (g : Grammar) (letter : Char) : Option Opt :=
  g.options.find? (·.letter == some letter)

/-- Adds an option, which is refused a second time unless it takes texts, and
refused without the path it takes. -/
def add (o : Opt) (value : String) (given : Given) : Except Stop Given :=
  if o.takes ≠ .texts && given.has o.name then .error .usage
  else if o.takes = .path && value = "" then .error .usage
  else .ok { given with options := given.options ++ [(o.name, value)] }

/-- The options of one letter in a word; the last may still need a value. -/
def letters (g : Grammar) (given : Given) : List Char → Except Stop (Given × Option Opt)
  | [] => .ok (given, none)
  | c :: rest =>
    match g.ofLetter? c with
    | none => .error (if c = 'h' then .help else if c = 'V' && g.hasVersion then .version else .usage)
    | some o =>
      if o.takes = .nothing then do g.letters (← add o "" given) rest
      else match rest with
        | [] => .ok (given, some o)
        | '=' :: value => do return (← add o (String.ofList value) given, none)
        | value => do return (← add o (String.ofList value) given, none)

/-- An option by its name, with a value if there is an equals sign; it may still need one. -/
def long (g : Grammar) (given : Given) (word : List Char) :
    Except Stop (Given × Option Opt) :=
  let name := String.ofList (word.takeWhile (· ≠ '='))
  let value? := match word.dropWhile (· ≠ '=') with
    | _ :: value => some (String.ofList value)
    | [] => none
  match g.ofName? name, value? with
  | some o, some value =>
    if o.takes = .nothing then .error .usage else do return (← add o value given, none)
  | some o, none =>
    if o.takes = .nothing then do return (← add o "" given, none) else .ok (given, some o)
  | none, none =>
    .error (if name = "help" then .help
      else if name = "version" && g.hasVersion then .version else .usage)
  | none, some _ => .error .usage

def operand (g : Grammar) (given : Given) (word : String) : Except Stop Given :=
  if given.operands.length < g.operands then
    .ok { given with operands := given.operands ++ [word] }
  else .error .usage

def operandsOnly (g : Grammar) (given : Given) : List String → Except Stop Given
  | [] => .ok given
  | word :: rest => do g.operandsOnly (← g.operand given word) rest

/-- What a request for help comes to: words behind it have to name a command. -/
def helpStop (g : Grammar) : List String → Stop
  | [] => .help
  | [command] => if g.commands.contains command || command = "help" then .help else .usage
  | _ => .usage

/-- Reads words; `pending` is the option that needs the next one as its value. -/
def read (g : Grammar) (given : Given) (pending : Option Opt) :
    List String → Except Stop Given
  | [] => if pending.isSome then .error .usage else .ok given
  | word :: rest =>
    match word.toList with
    | ['-', '-'] => if pending.isSome then .error .usage else g.operandsOnly given rest
    | '-' :: '-' :: name =>
      if pending.isSome then .error .usage
      else do
        let (given, pending) ← g.long given name
        g.read given pending rest
    | '-' :: c :: more =>
      if pending.isSome then .error .usage
      else do
        let (given, pending) ← g.letters given (c :: more)
        g.read given pending rest
    | _ =>
      match pending with
      | some o => do g.read (← add o word given) none rest
      | none =>
        if g.commands.contains word then .ok { given with command := some (word, rest) }
        else if word = "help" && !g.commands.isEmpty then .error (g.helpStop rest)
        else do g.read (← g.operand given word) none rest

def fromVariable? (env : Environment) (given : Given) (o : Opt) : Option String :=
  if given.has o.name then none else o.envName.bind env.get?

/-- Refuses a variable whose value the option does not take. -/
def checkVariables (g : Grammar) (env : Environment) (given : Given) : Except Stop Unit :=
  if g.options.any fun o => o.takes = .path && fromVariable? env given o == some "" then
    .error .usage
  else .ok ()

end Grammar

def splitTexts (values : List String) : List String :=
  values.flatMap fun v => (Text.splitOn ',' v.toList).map String.ofList

end Triage.CommandLine
