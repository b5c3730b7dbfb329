import EndpointAudit.Text.Split

/-!
# Arguments of a command

Options are told from other arguments by the dashes in front. A long option may have its value
attached by an equals sign, a short one may be followed by its value or by more short options.
Two dashes alone end the options.
-/

namespace EndpointAudit.Command

inductive UsageError where
  | missingParameter
  | badParameter
  | noSuchOption
  /-- An option lacks its value, or has one and takes none. -/
  | badOptionUsage
  | noSuchCommand
  | missingCommand
  | extraArgument
deriving DecidableEq, Repr

structure OptionTable (ο : Type) where
  /-- The names of options, dashes included. -/
  names : List (String × ο)
  takesValue : ο → Bool
  /-- Whether options may stand behind other arguments. -/
  anywhere : Bool := true

/-- What has been given to a command: options with their values, which are empty for switches, and
the other arguments. -/
structure Given (ο : Type) where
  options : List (ο × String) := []
  arguments : List String := []
deriving Repr

/-- The options in one argument, and the last of them if its value is still to come. -/
structure Cluster (ο : Type) where
  options : List (ο × String) := []
  open? : Option ο := none

namespace Given

variable {ο : Type}

/-- The value of an option; of several the last one counts. -/
def value? [BEq ο] (given : Given ο) (option : ο) : Option String :=
  (given.options.reverse.find? (·.1 == option)).map (·.2)

def has [BEq ο] (given : Given ο) (option : ο) : Bool := (given.value? option).isSome

end Given

namespace OptionTable

variable {ο : Type}

def option? (table : OptionTable ο) (name : String) : Option ο :=
  (table.names.find? (·.1 == name)).map (·.2)

/-- The short options in an argument, without its dash. -/
def shortOptions (table : OptionTable ο) : List Char → Except UsageError (Cluster ο)
  | [] => .ok {}
  | letter :: rest =>
    match table.option? (String.ofList ['-', letter]) with
    | none => .error .noSuchOption
    | some option =>
      if !table.takesValue option then do
        let more ← shortOptions table rest
        return { more with options := (option, "") :: more.options }
      else if rest.isEmpty then .ok { open? := some option }
      else .ok { options := [(option, String.ofList rest)] }

/-- A long option with the value attached to it. -/
def longOption (table : OptionTable ο) (option : ο) (attached : Option String) :
    Except UsageError (Cluster ο) :=
  match table.takesValue option, attached with
  | true, none => .ok { open? := some option }
  | true, some value => .ok { options := [(option, value)] }
  | false, none => .ok { options := [(option, "")] }
  | false, some _ => .error .badOptionUsage

def splitAttached (argument : List Char) : String × Option String :=
  match argument.span (· ≠ '=') with
  | (name, '=' :: value) => (String.ofList name, some (String.ofList value))
  | (name, _) => (String.ofList name, none)

def isLong (name : String) : Bool := Text.startsWith name "--"

def cluster (table : OptionTable ο) (argument : String) : Except UsageError (Cluster ο) :=
  let (name, attached) := splitAttached argument.toList
  if isLong argument then
    match table.option? name with
    | some option => table.longOption option attached
    | none => .error .noSuchOption
  else table.shortOptions (argument.toList.drop 1)

/-- Whether an argument is an option. A dash alone is none. -/
def isOption (argument : String) : Bool :=
  Text.startsWith argument "-" && argument != "-"

def read (table : OptionTable ο) : List String → Except UsageError (Given ο)
  | [] => .ok {}
  | argument :: rest =>
    if argument = "--" then .ok { arguments := rest }
    else if isOption argument then
      match table.cluster argument, rest with
      | .error e, _ => .error e
      | .ok { options, open? := none }, rest => do
        let more ← read table rest
        return { more with options := options ++ more.options }
      | .ok { options, open? := some option }, value :: rest => do
        let more ← read table rest
        return { more with options := options ++ (option, value) :: more.options }
      | .ok { open? := some _, .. }, [] => .error .badOptionUsage
    else if table.anywhere then do
      let more ← read table rest
      return { more with arguments := argument :: more.arguments }
    else .ok { arguments := argument :: rest }

end OptionTable

end EndpointAudit.Command
