/-
  LinkedData.CommandLine.Grammar — arguments read as an invocation.

  A level of the grammar has options, which begin with two dashes, and either operands or
  commands. An option's value is the next argument, or stands after an equals sign. After two
  dashes alone everything is an operand. Arguments are read from left to right and the first
  fault is the answer; an option whose value is the next argument is settled only when the
  argument after that is read, or at the end.
-/

import LinkedData.CommandLine.Command

namespace LinkedData.CommandLine

inductive UsageFault
  | displayHelp
  /-- Nothing was asked for. -/
  | nothingAsked
  | missingCommand
  | missingOperand
  | unknownArgument
  | unknownCommand
  | invalidValue
  | repeated
  | unwantedValue
  deriving DecidableEq, Repr

/-- The kind of fault by its established name. -/
def UsageFault.name : UsageFault → String
  | displayHelp => "DisplayHelp"
  | nothingAsked => "DisplayHelpOnMissingArgumentOrSubcommand"
  | missingCommand => "MissingSubcommand"
  | missingOperand => "MissingRequiredArgument"
  | unknownArgument => "UnknownArgument"
  | unknownCommand => "InvalidSubcommand"
  | invalidValue => "InvalidValue"
  | repeated => "ArgumentConflict"
  | unwantedValue => "TooManyValues"

/-- The code that a run ends with; asking for help is no failure. -/
def UsageFault.code : UsageFault → UInt8
  | displayHelp => 0
  | _ => 2

inductive ValueKind
  | flag
  | text
  /-- A location, which is not empty. -/
  | location
  deriving DecidableEq

abbrev Options := List (String × ValueKind)

/-- One level of the grammar. -/
structure Level where
  options : Options
  operands : Nat
  commands : List String

/-- What was read at a level so far. -/
structure Progress where
  given : List (String × String)
  operands : List String
  /-- An option that is not settled yet, and its value if it has one already. -/
  pending : Option (String × ValueKind × Option String)

namespace Progress

def empty : Progress := ⟨[], [], none⟩

/-- Take over the value of an option. -/
def give (p : Progress) (name : String) (kind : ValueKind) (value : String) : Except UsageFault Progress :=
  if (p.given.lookup name).isSome then .error .repeated
  else if kind = .location ∧ value = "" then .error .invalidValue
  else .ok { p with given := p.given ++ [(name, value)] }

/-- Settle the option that is pending. -/
def settle (p : Progress) : Except UsageFault Progress :=
  match p.pending with
  | none => .ok p
  | some (_, _, none) => .error .invalidValue
  | some (name, kind, some value) => { p with pending := none }.give name kind value

/-- The pending option waits for its value. -/
def waiting (p : Progress) : Bool :=
  match p.pending with
  | some (_, _, none) => true
  | _ => false

def value? (p : Progress) (name : String) : Option String := p.given.lookup name

end Progress

/-- Where a level ends: at the end of the arguments, or at a command. -/
inductive Ending
  | done
  | command (name : String) (rest : List String)

/-- An argument in two parts, around the first equals sign. -/
def splitValue (arg : List Char) : String × Option String :=
  let rest := arg.dropWhile (· ≠ '=')
  (String.ofList (arg.takeWhile (· ≠ '=')), if rest = [] then none else some (String.ofList (rest.drop 1)))

/-- An option, `arg` being what follows its dashes. -/
def readOption (level : Level) (p : Progress) (arg : List Char) : Except UsageFault Progress :=
  let (name, value) := splitValue arg
  if name = "help" then
    if value.isSome then .error .unwantedValue else p.settle >>= fun _ => .error .displayHelp
  else match level.options.lookup name, value with
    | none, _ => .error .unknownArgument
    | some .flag, some _ => .error .unwantedValue
    | some .flag, none => p.settle >>= fun p => p.give name .flag ""
    | some kind, some v => p.settle >>= fun p => p.give name kind v
    | some kind, none => p.settle >>= fun p => .ok { p with pending := some (name, kind, none) }

/-- One dash and letters; the only letter there is asks for help. -/
def readLetters (p : Progress) (letters : List Char) : UsageFault :=
  match letters, p.settle with
  | 'h' :: _, .ok _ => .displayHelp
  | 'h' :: _, .error f => f
  | _, _ => .unknownArgument

def readOperand (level : Level) (trailing : Bool) (p : Progress) (arg : String) : Except UsageFault Progress :=
  if p.operands.length < level.operands then
    p.settle >>= fun p => .ok { p with operands := p.operands ++ [arg] }
  else if level.commands = [] ∨ (trailing ∧ (arg = "help" ∨ arg ∈ level.commands)) then .error .unknownArgument
  else .error .unknownCommand

/-- Help for a command, or for all. -/
def helpFault (level : Level) : List String → UsageFault
  | [] => .displayHelp
  | [name] => if name = "help" ∨ name ∈ level.commands then .displayHelp else .unknownCommand
  | _ => .unknownCommand

def readLevel (level : Level) (trailing : Bool) (p : Progress) : List String → Except UsageFault (Progress × Ending)
  | [] => .ok (p, .done)
  | arg :: rest =>
    if trailing then readOperand level true p arg >>= fun p => readLevel level true p rest
    else if ¬ p.waiting ∧ level.commands ≠ [] ∧ arg = "help" then .error (helpFault level rest)
    else if ¬ p.waiting ∧ arg ∈ level.commands then .ok (p, .command arg rest)
    else match arg.toList with
      | ['-', '-'] => readLevel level true p rest
      | '-' :: '-' :: cs => readOption level p cs >>= fun p => readLevel level false p rest
      | '-' :: c :: cs => .error (readLetters p (c :: cs))
      | _ =>
        match p.pending with
        | some (name, kind, none) => readLevel level false { p with pending := some (name, kind, some arg) } rest
        | _ => readOperand level false p arg >>= fun p => readLevel level false p rest

/-! ## The grammar -/

def topLevel : Level :=
  ⟨[("workspace", .location), ("config", .location), ("verbose", .flag), ("log-level", .text), ("log-format", .text),
    ("log-output", .text), ("log-file", .location)], 0,
   ["init", "get", "versions", "delete", "delete-version", "config"]⟩

def commandLevel (name : String) : Level :=
  ⟨if name = "get" then [("at", .text)] else [],
   if name = "delete-version" then 2 else if name = "init" ∨ name = "config" then 0 else 1, []⟩

def command? (name : String) (p : Progress) : Option Command :=
  match name, p.operands with
  | "init", _ => some .init
  | "config", _ => some .config
  | "get", [id] => some (.get id (p.value? "at"))
  | "versions", [id] => some (.versions id)
  | "delete", [id] => some (.delete id)
  | "delete-version", [id, time] => some (.deleteVersion id time)
  | _, _ => none

/-- A command and its own arguments. -/
def parseCommand (name : String) (args : List String) : Except UsageFault Command := do
  let (p, _) ← readLevel (commandLevel name) false .empty args
  match command? name (← p.settle) with
  | some c => return c
  | none => throw .missingOperand

/-- All arguments. -/
def parse (args : List String) : Except UsageFault Invocation := do
  let (p, ending) ← readLevel topLevel false .empty args
  match ending with
  | .done =>
    let p ← p.settle
    throw (if p.given = [] then .nothingAsked else .missingCommand)
  | .command name rest =>
    let command ← parseCommand name rest
    let p ← p.settle
    return ⟨command, (p.value? "workspace").getD ".", p.value? "config", (p.value? "verbose").isSome,
      p.value? "log-level", p.value? "log-format", p.value? "log-output", p.value? "log-file"⟩

end LinkedData.CommandLine
