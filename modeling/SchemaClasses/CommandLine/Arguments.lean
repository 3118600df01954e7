import SchemaClasses.Settings.Layers

/-! The arguments of the program, read as one command with its options. -/

namespace SchemaClasses

/-- What the program is asked to do. -/
inductive Command where
  /-- Writes the catalogue of the documents at some paths. -/
  | generate (paths : List String) (strict : Bool) (language package output : Option String)
  /-- Reports on the documents at some paths. -/
  | check (paths : List String)
  /-- Writes the settings to a file. -/
  | initConfig (path : String)
deriving DecidableEq, Repr

namespace Command

/-- The paths that a command reads documents from. -/
def sources : Command → List String
  | generate paths .. | check paths => paths
  | initConfig _ => []

/-- The path that a command writes to. -/
def target? : Command → Option String
  | generate _ _ _ _ output => output
  | check _ => none
  | initConfig path => some path

end Command

/-- A command, and the settings file that is named for it. -/
structure Invocation where
  settingsFile : Option String
  command : Command
deriving DecidableEq, Repr

/-- Why there is no command to run. -/
inductive Refusal where
  | helpWanted
  | misuse (reason : String)
deriving DecidableEq, Repr

namespace CommandLine

/-- The options of the program. -/
inductive Switch where
  | config
  | strict
  | language
  | package
  | output
deriving DecidableEq, Repr

namespace Switch

/-- The name behind two dashes. -/
def name : Switch → String
  | config => "config"
  | strict => "strict"
  | language => "language"
  | package => "package"
  | output => "output"

/-- The letter behind one dash. -/
def letter? : Switch → Option Char
  | config => some 'c'
  | strict => none
  | language => some 'l'
  | package => some 'p'
  | output => some 'o'

/-- Whether the option has a value. -/
def hasValue (switch : Switch) : Bool := switch ≠ strict

/-- Whether the value is a path, which must not be empty. -/
def isPath (switch : Switch) : Bool := switch = config || switch = output

end Switch

/-- The names of the commands. -/
inductive Verb where
  | generate
  | check
  | initConfig
deriving DecidableEq, Repr

namespace Verb

/-- The word that selects the command. -/
def word : Verb → String
  | generate => "generate"
  | check => "check"
  | initConfig => "init-config"

/-- The command that a word selects. -/
def ofWord? (text : String) : Option Verb :=
  [generate, check, initConfig].find? fun verb => verb.word == text

/-- The options of a command; the settings file can be named anywhere. -/
def switches : Verb → List Switch
  | generate => [.config, .strict, .language, .package, .output]
  | check | initConfig => [.config]

end Verb

/-- What one argument is, where options may stand. -/
inductive Word where
  | operand
  /-- All further arguments are operands. -/
  | escape
  | help
  /-- An option, with the value that is written together with it. -/
  | switch (switch : Switch) (value : Option String)
  | unknown
deriving DecidableEq, Repr

/-- What one argument is. -/
def wordOf (allowed : List Switch) (argument : String) : Word :=
  match argument.toList with
  | ['-', '-'] => .escape
  | '-' :: '-' :: letters =>
    let (name, value) := match cutOnce '=' (String.ofList letters) with
      | some (name, value) => (name, some value)
      | none => (String.ofList letters, none)
    match allowed.find? fun switch => switch.name == name with
    | some switch => .switch switch value
    | none => if name == "help" && value.isNone then .help else .unknown
  | '-' :: letter :: rest =>
    let value := match rest with
      | [] => none
      | '=' :: value => some (String.ofList value)
      | value => some (String.ofList value)
    match allowed.find? fun switch => switch.letter? == some letter with
    | some switch => .switch switch value
    | none => if letter == 'h' then .help else .unknown
  | _ => .operand

/-- The refusal of an argument. -/
def unexpected {α : Type} (argument : String) : Except Refusal α :=
  .error (.misuse ("unexpected argument '" ++ argument ++ "' found"))

/-- The refusal of an option without its value. -/
def valueMissing {α : Type} (argument : String) : Except Refusal α :=
  .error (.misuse ("a value is required for '" ++ argument ++ "' but none was supplied"))

/-- The refusal of arguments that name no command. -/
def noCommand {α : Type} : Except Refusal α := .error (.misuse "no command was given")

/-- The options and operands met so far. -/
structure Parts where
  values : List (Switch × String) := []
  operands : List String := []
deriving DecidableEq, Repr

namespace Parts

/-- The value of an option. -/
def value? (parts : Parts) (switch : Switch) : Option String := parts.values.lookup switch

/-- One more option; none can be given twice. -/
def withValue (parts : Parts) (switch : Switch) (value : String) : Except Refusal Parts :=
  if (parts.value? switch).isSome then
    .error (.misuse ("the argument '--" ++ switch.name ++ "' cannot be used multiple times"))
  else if switch.isPath && value == "" then
    valueMissing ("--" ++ switch.name)
  else .ok { parts with values := parts.values ++ [(switch, value)] }

/-- More operands. -/
def withOperands (parts : Parts) (operands : List String) : Parts :=
  { parts with operands := parts.operands ++ operands }

end Parts

/-- Options and operands, all of them or up to the first operand; the arguments behind that are
left. -/
def scan (allowed : List Switch) (untilOperand : Bool) (parts : Parts) :
    List String → Except Refusal (Parts × List String)
  | [] => .ok (parts, [])
  | argument :: rest =>
    match wordOf allowed argument with
    | .operand =>
      let parts := parts.withOperands [argument]
      if untilOperand then .ok (parts, rest) else scan allowed untilOperand parts rest
    | .escape => if untilOperand then noCommand else .ok (parts.withOperands rest, [])
    | .help => .error .helpWanted
    | .unknown => unexpected argument
    | .switch switch value =>
      match switch.hasValue, value, rest with
      | false, some _, _ => unexpected argument
      | false, none, rest => do scan allowed untilOperand (← parts.withValue switch "") rest
      | true, some value, rest => do scan allowed untilOperand (← parts.withValue switch value) rest
      | true, none, [] => valueMissing argument
      | true, none, value :: rest =>
        if wordOf allowed value = .operand then do
          scan allowed untilOperand (← parts.withValue switch value) rest
        else valueMissing argument

/-- The command with its options and operands. -/
def commandOf (verb : Verb) (parts : Parts) : Except Refusal Command :=
  if "" ∈ parts.operands then .error (.misuse "a path must not be empty")
  else match verb, parts.operands with
    | .generate, [] | .check, [] => .error (.misuse "no paths were given")
    | .generate, paths =>
      .ok (.generate paths (parts.value? .strict).isSome (parts.value? .language)
        (parts.value? .package) (parts.value? .output))
    | .check, paths => .ok (.check paths)
    | .initConfig, [] => .ok (.initConfig (Layers.baseName ++ ".toml"))
    | .initConfig, [path] => .ok (.initConfig path)
    | .initConfig, _ :: extra :: _ => unexpected extra

/-- The refusal for the word for help, which a single command may follow. -/
def helpOf : List String → Refusal
  | [] => .helpWanted
  | [word] =>
    if word == "help" || (Verb.ofWord? word).isSome then .helpWanted
    else .misuse ("unrecognized command '" ++ word ++ "'")
  | _ :: extra :: _ => .misuse ("unrecognized command '" ++ extra ++ "'")

/-- The invocation that the arguments of the program spell; a settings file that is named behind
the command wins over one before it. -/
def parse (arguments : List String) : Except Refusal Invocation := do
  let (first, rest) ← scan [.config] true {} arguments
  match first.operands.head? with
  | none => noCommand
  | some word =>
    match Verb.ofWord? word with
    | none =>
      if word == "help" then throw (helpOf rest)
      else throw (.misuse ("unrecognized command '" ++ word ++ "'"))
    | some verb =>
      let (parts, _) ← scan verb.switches false {} rest
      let command ← commandOf verb parts
      return ⟨parts.value? .config <|> first.value? .config, command⟩

end CommandLine

end SchemaClasses
