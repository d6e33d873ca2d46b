import GyroDelay.Command.Environment

/-!
# Command lines

The grammar of one level of a command line and the reading of its words.

A parameter is given by its name behind two hyphens or by its letter behind one; letters may
be put together. A value follows as the next word, behind an equals sign, or right behind the
letter. The first word that names a command ends the level. Parameters that are not given
may take their values from the environment.
-/

namespace GyroDelay.Command

/-- A parameter of a command line. -/
structure Parameter where
  /-- The name behind two hyphens. -/
  name : String
  /-- The letter behind one hyphen. -/
  letter : Option Char := none
  /-- Whether a value follows. -/
  takesValue : Bool := true
  /-- Which values are allowed. -/
  accepts : String → Bool := fun _ => true
  /-- The variable of the environment that stands in for the parameter. -/
  envName : Option String := none
  /-- Whether the parameter has to be given. -/
  required : Bool := false
  /-- Whether the parameter may be given several times. -/
  repeatable : Bool := false

/-- One level of a command line. -/
structure Grammar where
  /-- The parameters. -/
  parameters : List Parameter
  /-- The commands that may end the level. -/
  commands : List String
  /-- Whether the version of the program may be asked for. -/
  hasVersion : Bool
  /-- Pairs of parameters that exclude each other. -/
  conflicts : List (String × String)

/-- Why a command line is refused. -/
inductive UsageFault where
  /-- There is no parameter of this name or letter. -/
  | unknownParameter (word : String)
  /-- A word that is neither a parameter nor a value. -/
  | surplusWord (word : String)
  /-- A parameter without its value. -/
  | missingValue (name : String)
  /-- A value for a parameter that takes none. -/
  | surplusValue (name : String)
  /-- A value that the parameter does not allow. -/
  | badValue (name value : String)
  /-- A parameter that is given twice. -/
  | repeated (name : String)
  /-- A parameter that has to be given and is not. -/
  | missingParameter (name : String)
  /-- Two parameters that exclude each other. -/
  | conflict (first second : String)
  /-- No command is given. -/
  | missingCommand
  /-- There is no command of this name. -/
  | unknownCommand (word : String)
deriving Repr, DecidableEq

/-- What is said about a refused command line. -/
def UsageFault.message : UsageFault → String
  | unknownParameter word => s!"unexpected argument '{word}' found"
  | surplusWord word => s!"unexpected argument '{word}' found"
  | missingValue name => s!"a value is required for '--{name}' but none was supplied"
  | surplusValue name => s!"unexpected value for '--{name}' found; no more were expected"
  | badValue name value => s!"invalid value '{value}' for '--{name}'"
  | repeated name => s!"the argument '--{name}' cannot be used multiple times"
  | missingParameter name => s!"the required argument '--{name}' was not provided"
  | conflict first second => s!"the argument '--{first}' cannot be used with '--{second}'"
  | missingCommand => "a command is required but none was provided"
  | unknownCommand word => s!"unrecognized command '{word}'"

/-- Why the reading of a command line stops early. -/
inductive Stop where
  /-- Help on a command, or on all of them, is asked for. -/
  | help (command : Option String)
  /-- The version is asked for. -/
  | version
  /-- The command line is refused. -/
  | refused (fault : UsageFault)
deriving Repr, DecidableEq

/-- Parameters with their values, in the order in which they are given. A parameter without
a value has an empty one. -/
abbrev Given := List (String × String)

/-- Whether a parameter is given. -/
def Given.has (given : Given) (name : String) : Bool := given.any fun g => g.1 == name

/-- The value of a parameter. -/
def Given.get? (given : Given) (name : String) : Option String :=
  (given.find? fun g => g.1 == name).map (·.2)

/-- Adds a parameter with its value. -/
def Parameter.give (p : Parameter) (value : String) (given : Given) : Except Stop Given :=
  if !p.repeatable && given.has p.name then .error (.refused (.repeated p.name))
  else if p.takesValue && !p.accepts value then .error (.refused (.badValue p.name value))
  else .ok (given ++ [(p.name, value)])

namespace Grammar

/-- Reads a word of letters. A parameter whose value is to come is returned as well. -/
def letters (g : Grammar) (given : Given) :
    List Char → Except Stop (Given × Option Parameter)
  | [] => .ok (given, none)
  | c :: cs =>
    if c = 'h' then .error (.help none)
    else if c = 'V' && g.hasVersion then .error .version
    else match g.parameters.find? fun p => p.letter = some c with
      | none => .error (.refused (.unknownParameter (String.ofList ['-', c])))
      | some p =>
        if p.takesValue then
          match cs with
          | [] => .ok (given, some p)
          | '=' :: value => (p.give (String.ofList value) given).map fun given => (given, none)
          | value => (p.give (String.ofList value) given).map fun given => (given, none)
        else
          match p.give "" given with
          | .error stop => .error stop
          | .ok given => letters g given cs

/-- Reads a word behind two hyphens, divided at its first equals sign. -/
def long (g : Grammar) (given : Given) (name : String) (value : Option String) :
    Except Stop (Given × Option Parameter) :=
  let isHelp := name = "help"
  let isVersion := name = "version" && g.hasVersion
  if isHelp || isVersion then
    match value with
    | some _ => .error (.refused (.surplusValue name))
    | none => .error (if isHelp then .help none else .version)
  else match g.parameters.find? fun p => p.name == name with
    | none => .error (.refused (.unknownParameter ("--" ++ name)))
    | some p =>
      match p.takesValue, value with
      | true, none => .ok (given, some p)
      | true, some value => (p.give value given).map fun given => (given, none)
      | false, none => (p.give "" given).map fun given => (given, none)
      | false, some _ => .error (.refused (.surplusValue name))

/-- Reads a word that begins with a hyphen and has more characters. -/
def hyphened (g : Grammar) (given : Given) : List Char → Except Stop (Given × Option Parameter)
  | '-' :: cs =>
    let name := String.ofList (cs.takeWhile (· ≠ '='))
    match cs.dropWhile (· ≠ '=') with
    | _ :: value => g.long given name (some (String.ofList value))
    | [] => g.long given name none
  | cs => g.letters given cs

/-- Reads the words of a level. `pending` is a parameter whose value is to come. Returned
are the parameters, and the command that ends the level with the words behind it. -/
def read (g : Grammar) (pending : Option Parameter) (given : Given) :
    List String → Except Stop (Given × Option (String × List String))
  | [] =>
    match pending with
    | some p => .error (.refused (.missingValue p.name))
    | none => .ok (given, none)
  | word :: rest =>
    match pending, word.toList with
    | some p, '-' :: _ :: _ => .error (.refused (.missingValue p.name))
    | some p, _ =>
      match p.give word given with
      | .error stop => .error stop
      | .ok given => read g none given rest
    | none, ['-', '-'] =>
      match rest with
      | [] => .ok (given, none)
      | word :: _ => .error (.refused (.surplusWord word))
    | none, '-' :: c :: cs =>
      match g.hyphened given (c :: cs) with
      | .error stop => .error stop
      | .ok (given, pending) => read g pending given rest
    | none, _ =>
      if g.commands.contains word then .ok (given, some (word, rest))
      else if g.commands.isEmpty then .error (.refused (.surplusWord word))
      else .error (.refused (.unknownCommand word))

/-- Adds the parameters that the environment gives. -/
def fill (env : Environment) (given : Given) : List Parameter → Except Stop Given
  | [] => .ok given
  | p :: rest =>
    match p.envName.bind env.get? with
    | some value =>
      if given.has p.name then fill env given rest
      else if p.accepts value then fill env (given ++ [(p.name, value)]) rest
      else .error (.refused (.badValue p.name value))
    | none => fill env given rest

/-- Adds what the environment gives to the parameters of a level and checks them. -/
def complete (g : Grammar) (env : Environment) (given : Given) : Except Stop Given := do
  let given ← fill env given g.parameters
  match g.parameters.find? fun p => p.required && !given.has p.name with
  | some p => throw (.refused (.missingParameter p.name))
  | none =>
    match g.conflicts.find? fun (a, b) => given.has a && given.has b with
    | some (a, b) => throw (.refused (.conflict a b))
    | none => return given

end Grammar

end GyroDelay.Command
