/-
  LinkedData.Logging — which logging configurations are accepted, and what starting one does.

  A configuration is checked part by part: the directives, the format, the output. Variables
  of the environment come before the configuration, each for its part. Output to a file makes
  the file and the directories above it. Logging is started once.
-/

import LinkedData.Config.Layers
import LinkedData.Logging.Directive

namespace LinkedData

inductive LoggingFault
  | directive (text : String) (fault : Directive.Fault)
  | format (name : String)
  | output (name : String)
  /-- The directory of the file cannot be made. -/
  | directory
  | file
  | started
  deriving DecidableEq, Repr

namespace LoggingFault

def message : LoggingFault → String
  | directive t f => "Invalid log directive '" ++ t ++ "': " ++ f.message
  | format n => "Invalid log format: " ++ n ++ " (must be 'json' or 'text')"
  | output n => "Invalid log output: " ++ n ++ " (must be 'stdout', 'stderr' or 'file')"
  | directory => "Failed to create log directory"
  | file => "Failed to open log file"
  | started => "Failed to initialize logging: a global default trace dispatcher has already been set"

def error (f : LoggingFault) : Error := .config f.message

end LoggingFault

namespace Logging

/-- A directive for a module from the environment: text around the first equals sign. -/
def moduleDirective? (spec : String) : Option String :=
  let cs := spec.toList
  if cs.contains '=' then
    let name := Text.trim (cs.takeWhile (· ≠ '='))
    let level := Text.trim ((cs.dropWhile (· ≠ '=')).drop 1)
    some (String.ofList (name ++ '=' :: level))
  else none

/-- The directives for modules: those configured, then those of the environment. -/
def moduleDirectives (s : Surroundings) (c : LoggingConfig) : List String :=
  c.modules.toList.map (fun m => m.1 ++ "=" ++ m.2) ++
    (((s.valueOf? "LDP_LOG_MODULES").getD "").splitOn ",").filterMap moduleDirective?

/-- The variable holds a filter that takes the place of everything configured. -/
def isReplaced (s : Surroundings) : Bool :=
  ((s.valueOf? "LDP_LOG").map fun text => (Directive.checkAll text).isOk).getD false

def checkFilter (s : Surroundings) (c : LoggingConfig) : Except LoggingFault Unit :=
  if isReplaced s ∨ c.level = "off" then .ok ()
  else (moduleDirectives s c).forM fun d => (Directive.check d).mapError (.directive d)

def checkFormat (name : String) : Except LoggingFault Unit :=
  if name = "text" ∨ name = "json" then .ok () else .error (.format name)

/-- Make a log file, if it is not there, and the directories above it. The directories that were made
    stay even if the file cannot be made. -/
def openFile (s : Surroundings) (location : String) : Except LoggingFault Unit × FileTree :=
  let above := match Location.parent? location with
    | none | some "" => pure ()
    | some parent => FileTree.createDirectories (Location.path s.here parent)
  match s.files.run above with
  | (.error _, files) => (.error .directory, files)
  | (.ok (), files) =>
    let (opened, files) := files.run (FileTree.touch (Location.path s.here location))
    (opened.mapError fun _ => .file, files)

def openOutput (s : Surroundings) (name : String) (file : String) : Except LoggingFault Unit × FileTree :=
  if name = "file" then openFile s file
  else if name = "stdout" ∨ name = "stderr" then (.ok (), s.files)
  else (.error (.output name), s.files)

/-- The directives and the format are fine. -/
def checkForm (s : Surroundings) (c : LoggingConfig) : Except LoggingFault Unit := do
  checkFilter s c
  checkFormat ((s.valueOf? "LDP_LOG_FORMAT").getD c.format)

/-- Start logging. The output is opened even if logging was `started` before. -/
def start (started : Bool) (s : Surroundings) (c : LoggingConfig) : Except LoggingFault Unit × FileTree :=
  match checkForm s c with
  | .error f => (.error f, s.files)
  | .ok () =>
    let (opened, files) := openOutput s ((s.valueOf? "LDP_LOG_OUTPUT").getD c.output) c.file
    (opened.bind fun _ => if started then .error .started else .ok (), files)

end Logging

end LinkedData
