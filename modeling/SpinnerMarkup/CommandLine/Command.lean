import SpinnerMarkup.CommandLine.Parameter
import SpinnerMarkup.Listing

/-! Commands: what a command line asks for, and what comes of it. -/
namespace SpinnerMarkup.CommandLine

/-- A command by its name. -/
inductive Topic where
  | fix
  | rules
  | help
  deriving Repr, DecidableEq

def Topic.ofText? (name : Text) : Option Topic :=
  if name = "fix".toList then some .fix
  else if name = "rules".toList then some .rules
  else if name = "help".toList then some .help
  else none

inductive Command where
  /-- Update files. -/
  | fix (request : Request)
  /-- List the rules. -/
  | rules (format : Format)
  /-- Tell the usage, of one command or of all. -/
  | help (topic : Option Topic)
  | version
  deriving Repr, DecidableEq

def fixSignature : Signature :=
  ⟨[.root, .manifest, .scan, .extensions, .dryRun, .format], some .paths⟩

def rulesSignature : Signature := ⟨[.format], none⟩

namespace Command

def readFix (arguments : List Text) : Except UsageError Command := do
  match ← fixSignature.read arguments with
  | some given => return .fix given.toRequest
  | none => return .help (some .fix)

def readRules (arguments : List Text) : Except UsageError Command := do
  match ← rulesSignature.read arguments with
  | some given => return .rules given.format
  | none => return .help (some .rules)

/-- The command to tell the usage of what the arguments name. No command has commands of its own. -/
def readHelp : List Text → Except UsageError Command
  | [] => .ok (.help none)
  | name :: rest =>
    match Topic.ofText? name with
    | none => .error (.unknownCommand name)
    | some topic =>
      match rest with
      | [] => .ok (.help (some topic))
      | word :: _ => .error (.unknownCommand word)

/-- A flag in front of a command, given by its name and the text behind its equals sign. -/
def readFlag (name : Text) (value : Option Text) : Except UsageError Command :=
  let flag := '-' :: '-' :: name
  let command? : Option Command :=
    if name = "help".toList then some (.help none)
    else if name = "version".toList then some .version
    else none
  match command?, value with
  | none, _ => .error (.unexpected flag)
  | some _, some v => .error (.unexpectedValue v flag)
  | some command, none => .ok command

/-- A flag in front of a command, given by its letter. -/
def readShortFlag (flag : Char) : Except UsageError Command :=
  if flag = 'h' then .ok (.help none)
  else if flag = 'V' then .ok .version
  else .error (.unexpected ['-', flag])

/-- What is wrong with arguments behind two dashes, where no command is looked for. -/
def behindEnding : List Text → UsageError
  | [] => .noCommand
  | word :: _ =>
    match Topic.ofText? word with
    | some _ => .unexpected word
    | none => .unknownCommand word

/-- The command that arguments ask for. -/
def ofArguments : List Text → Except UsageError Command
  | [] => .error .noCommand
  | first :: rest =>
    match Topic.ofText? first, Argument.ofText first with
    | some .fix, _ => readFix rest
    | some .rules, _ => readRules rest
    | some .help, _ => readHelp rest
    | none, .ending => .error (behindEnding rest)
    | none, .long name value => readFlag name value
    | none, .short flag => readShortFlag flag
    | none, .word => .error (.unknownCommand first)

end Command

/-! ### What comes of a command -/

/-- What a run leaves behind, apart from the files. -/
structure Outcome where
  /-- The exit code. -/
  code : Nat
  /-- What is printed. -/
  output : Text := []
  /-- What is told as an error. -/
  error : Option Text := none
  deriving Repr, DecidableEq

namespace Outcome

/-- The first line of what is told as an error. -/
def errorLine? (o : Outcome) : Option Text := o.error.map Text.firstLine

/-- A failed file makes the exit code one. -/
def ofReport (request : Request) (report : Report) : Outcome :=
  { code := if 0 < report.failedCount then 1 else 0
    output := request.render report ++ ['\n'] }

/-- A failure is told with its structure. -/
def ofFailure (failure : Failure) : Outcome :=
  { code := 1, error := some ("Error: ".toList ++ failure.detail) }

/-- A bad command line has an exit code of its own. -/
def ofUsageError (e : UsageError) : Outcome :=
  { code := 2, error := e.message?.map ("error: ".toList ++ ·) }

end Outcome

def versionLine : Text := "spinfix-cli 0.1.0\n".toList

def usage : Option Topic → Text
  | some .fix => "Usage: spinfix fix [OPTIONS] [PATHS]...\n".toList
  | some .rules => "Usage: spinfix rules [OPTIONS]\n".toList
  | some .help => "Usage: spinfix help [COMMAND]...\n".toList
  | none => "Usage: spinfix <COMMAND>\n".toList

def listRules : Format → Text
  | .text => Catalog.standard.listing
  | .json => Catalog.standard.toJson.render ++ ['\n']

variable {m : Type → Type} [Monad m]

def Command.run (c : Command) (s : Surroundings) (store : Store m) : m Outcome :=
  match c with
  | .fix request => do
    match ← request.run s store with
    | .ok report => return .ofReport request report
    | .error failure => return .ofFailure failure
  | .rules format => pure { code := 0, output := listRules format }
  | .help topic => pure { code := 0, output := usage topic }
  | .version => pure { code := 0, output := versionLine }

/-- Reads a command line and carries out what it asks for. -/
def run (arguments : List Text) (s : Surroundings) (store : Store m) : m Outcome :=
  match Command.ofArguments arguments with
  | .ok command => command.run s store
  | .error e => pure (.ofUsageError e)

end SpinnerMarkup.CommandLine
