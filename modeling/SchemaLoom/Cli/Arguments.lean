import SchemaLoom.Cli.Command

/-!
# Arguments

Options stand before or after the command. Some hold for every command and may be
given once before the command and once after it; then the later value counts. A value
follows its option as the next argument, which must not look like an option, or after
an equals sign. Two dashes end the options. Asking for the version or for help is
answered where it is met.
-/

namespace SchemaLoom.Cli

/-- The commands by name. -/
inductive CommandName where
  | generate
  | parse
  | split
  | normalize
  | apply
  | describe
  | drop
  deriving DecidableEq, Repr

/-- The command of a given name. -/
def CommandName.ofText? : String -> Option CommandName
  | "generate" => some .generate
  | "parse" => some .parse
  | "split" => some .split
  | "normalize" => some .normalize
  | "apply" => some .apply
  | "describe" => some .describe
  | "drop" => some .drop
  | _ => none

/-- The greatest number of operands of a command, if there is one. -/
def CommandName.operandLimit? : CommandName -> Option Nat
  | .drop => none
  | _ => some 1

/-- An option without a value. -/
inductive Switch where
  | quiet
  | verbose
  | compact
  | diagram
  | apply
  deriving DecidableEq, Repr

/-- An option with a value. -/
inductive Setting where
  | config
  | detail
  | database
  deriving DecidableEq, Repr

/-- What an option is. -/
inductive Choice where
  | switch (switch : Switch)
  | setting (setting : Setting)
  | version
  | help

namespace Choice

/-- The option of a given long name, after the given command or before any. -/
def ofLong? (command : Option CommandName) (name : String) : Option Choice :=
  match name, command with
  | "quiet", _ => some (.switch .quiet)
  | "verbose", _ => some (.switch .verbose)
  | "compact", _ => some (.switch .compact)
  | "config", _ => some (.setting .config)
  | "help", _ => some .help
  | "version", none => some .version
  | "diagram", some .parse => some (.switch .diagram)
  | "detail", some .parse => some (.setting .detail)
  | "apply", some .drop => some (.switch .apply)
  | "database", some .apply => some (.setting .database)
  | "database", some .describe => some (.setting .database)
  | "database", some .drop => some (.setting .database)
  | _, _ => none

/-- The option of a given letter. None of them takes a value. -/
def ofShort? (command : Option CommandName) (letter : Char) : Option Choice :=
  match letter, command with
  | 'q', _ => some (.switch .quiet)
  | 'v', _ => some (.switch .verbose)
  | 'h', _ => some .help
  | 'V', none => some .version
  | _, _ => none

end Choice

/-- The arguments read at one level: before the command, or after it. -/
structure Level where
  switches : List Switch := []
  settings : List (Setting × String) := []
  operands : List String := []
  deriving DecidableEq, Repr

namespace Level

/-- The value of an option. -/
def value? (level : Level) (setting : Setting) : Option String :=
  (level.settings.find? fun entry => entry.1 == setting).map Prod.snd

/-- Adds an option without a value, which may stand once. -/
def addSwitch (level : Level) (switch : Switch) : Except Request Level :=
  if level.switches.contains switch then .error .misuse
  else .ok { level with switches := level.switches ++ [switch] }

/-- Adds an option with its value, which may stand once. A path is not empty. -/
def addSetting (level : Level) (setting : Setting) (value : String) : Except Request Level :=
  if (level.value? setting).isSome || (setting != .detail && value.isEmpty) then .error .misuse
  else .ok { level with settings := level.settings ++ [(setting, value)] }

/-- Adds an operand of a command, of which there may be only so many. -/
def addOperand (command : CommandName) (level : Level) (operand : String) :
    Except Request Level :=
  if command.operandLimit?.any fun limit => limit ≤ level.operands.length then .error .misuse
  else .ok { level with operands := level.operands ++ [operand] }

/-- Adds options given by letters after one dash. -/
def addLetters (command : Option CommandName) (level : Level) :
    List Char -> Except Request Level
  | [] => .ok level
  | letter :: letters =>
      match Choice.ofShort? command letter with
      | some (.switch switch) => do
          let level ← level.addSwitch switch
          level.addLetters command letters
      | some .version => .error .version
      | some .help => .error .help
      | _ => .error .misuse

end Level

/-- How an argument reads by its dashes. -/
inductive Shape where
  | ending
  | long (name : String) (value : Option String)
  | letters (letters : List Char)
  | operand

/-- The shape of an argument. A single dash is an operand. -/
def Shape.of (argument : String) : Shape :=
  match argument.toList with
  | ['-', '-'] => .ending
  | '-' :: '-' :: name =>
      if name.contains '=' then
        .long (String.ofList (name.takeWhile (· != '=')))
          (some (String.ofList ((name.dropWhile (· != '=')).drop 1)))
      else .long (String.ofList name) none
  | '-' :: letter :: others => .letters (letter :: others)
  | _ => .operand

/-- Reads the arguments of a level. Before a command the first operand ends the level;
it comes back with what follows it. -/
def readLevel (command : Option CommandName) (level : Level) :
    List String -> Except Request (Level × List String)
  | [] => .ok (level, [])
  | argument :: rest =>
      match Shape.of argument with
      | .ending => .ok ({ level with operands := level.operands ++ rest }, [])
      | .letters letters => do
          let level ← level.addLetters command letters
          readLevel command level rest
      | .operand =>
          match command with
          | none => .ok (level, argument :: rest)
          | some name => do
              let level ← level.addOperand name argument
              readLevel command level rest
      | .long name attached =>
          match Choice.ofLong? command name, attached with
          | some (.switch switch), none => do
              let level ← level.addSwitch switch
              readLevel command level rest
          | some (.setting setting), some value => do
              let level ← level.addSetting setting value
              readLevel command level rest
          | some (.setting setting), none =>
              match rest with
              | [] => .error .misuse
              | value :: rest =>
                  match Shape.of value with
                  | .operand => do
                      let level ← level.addSetting setting value
                      readLevel command level rest
                  | _ => .error .misuse
          | some .version, none => .error .version
          | some .help, none => .error .help
          | _, _ => .error .misuse

/-- The command that the operands and options after its name describe. -/
def commandOf (name : CommandName) (level : Level) : Option Command :=
  let database := level.value? .database
  match name, level.operands with
  | .generate, [source] => some (.generate source)
  | .parse, [source] =>
      some (.parse source (level.switches.contains .diagram) ((level.value? .detail).getD "all"))
  | .split, [source] => some (.split source)
  | .normalize, [] => some (.normalize none)
  | .normalize, [source] => some (.normalize (some source))
  | .apply, [source] => some (.apply source database)
  | .describe, [] => some (.describe none database)
  | .describe, [table] => some (.describe (some table) database)
  | .drop, tables => some (.drop database (level.switches.contains .apply) tables)
  | _, _ => none

/-- Reads all arguments, or finds a reason not to run a command. -/
def readArguments (arguments : List String) : Except Request Invocation := do
  let (outer, rest) ← readLevel none {} arguments
  match rest with
  | [] => .error .misuse
  | name :: rest =>
      match CommandName.ofText? name with
      | none => .error (if name == "help" then .help else .misuse)
      | some name => do
          let (inner, _) ← readLevel (some name) {} rest
          match commandOf name inner with
          | none => .error .misuse
          | some command =>
              return {
                command
                config := (inner.value? .config).or (outer.value? .config)
                compact := inner.switches.contains .compact || outer.switches.contains .compact }

/-- What arguments ask for. -/
def Request.ofArguments (arguments : List String) : Request :=
  match readArguments arguments with
  | .ok invocation => .run invocation
  | .error request => request

end SchemaLoom.Cli
