/-
  LinkedData.CommandLine.Command — what can be asked for on a command line.
-/

import LinkedData.Text.Quoted

namespace LinkedData

inductive Command
  | init
  | get (id : String) (at_ : Option String)
  | versions (id : String)
  | delete (id : String)
  | deleteVersion (id time : String)
  | config
  deriving DecidableEq, Repr

/-- A command with the options around it. -/
structure Invocation where
  command : Command
  workspace : String
  config : Option String
  verbose : Bool
  logLevel : Option String
  logFormat : Option String
  logOutput : Option String
  logFile : Option String
  deriving DecidableEq, Repr

namespace Command

def optional : Option String → String
  | none => "None"
  | some s => "Some(" ++ Text.quoted s ++ ")"

/-- A name and its fields. -/
def withFields (name : String) (fields : List (String × String)) : String :=
  name ++ " \x7b " ++ ", ".intercalate (fields.map fun f => f.1 ++ ": " ++ f.2) ++ " \x7d"

/-- The command as it is written to the log. -/
def display : Command → String
  | init => "Init"
  | get id at_ => withFields "Get" [("id", Text.quoted id), ("at", optional at_)]
  | versions id => withFields "Versions" [("id", Text.quoted id)]
  | delete id => withFields "Delete" [("id", Text.quoted id)]
  | deleteVersion id time => withFields "DeleteVersion" [("id", Text.quoted id), ("time", Text.quoted time)]
  | config => "Config"

end Command

end LinkedData
