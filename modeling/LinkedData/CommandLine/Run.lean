/-
  LinkedData.CommandLine.Run — commands carried out, and a whole run of the program.

  A command answers with text or with an error. A run reads the configuration, starts
  logging, opens the workspace, carries the command out and leaves the files behind.
-/

import LinkedData.Address
import LinkedData.CommandLine.Grammar
import LinkedData.Config.Text
import LinkedData.Listing
import LinkedData.Logging
import LinkedData.Workspace

namespace LinkedData.CommandLine

/-! ## Commands -/

def parseTime (s : String) : Except Error Instant :=
  (Instant.read s).mapError fun f => .malformedInput ("Invalid timestamp '" ++ s ++ "': " ++ f.message)

/-- What keeps a resource that was not found from being found. -/
def whyMissing (w : Workspace) (id : Iri) : Error :=
  match w.service.repository.require id with
  | .error e => e
  | .ok _ => .notFound id

def getNow (w : Workspace) (id : Iri) : Except Error String := do
  match ← w.service.get id with
  | some r => return Listing.resource r
  | none => throw (whyMissing w id)

def getAt (w : Workspace) (id : Iri) (t : Instant) : Except Error String := do
  match ← w.service.getAt id t with
  | some r => return Listing.resource r
  | none => throw (.notFound id)

def get (w : Workspace) (id : String) (at_ : Option String) : Except Error String := do
  let id ← Address.resolve w.service.root id
  match at_ with
  | some t => getAt w id (← parseTime t)
  | none => getNow w id

def versions (w : Workspace) (id : String) : Except Error String := do
  let id ← Address.resolve w.service.root id
  return Listing.history id.text (← w.service.mementoTimes id)

def init (w : Workspace) (now : Instant) : Except Error String × Workspace :=
  let (answer, service) := w.service.createRoot now
  (answer.map fun
    | some r => "Initialized root container " ++ r.id.text
    | none => "Root container " ++ w.service.root.text ++ " already exists", { w with service })

def delete (w : Workspace) (id : String) (now : Instant) : Except Error String × Workspace :=
  match Address.resolve w.service.root id with
  | .error e => (.error e, w)
  | .ok id =>
    let (answer, service) := w.service.delete id (.administrator now) now
    (answer.map fun _ => "Deleted " ++ id.text, { w with service })

def deleteVersion (w : Workspace) (id time : String) : Except Error String × Workspace :=
  let target : Except Error (Iri × Instant) := do
    return (← Address.resolve w.service.root id, ← parseTime time)
  match target with
  | .error e => (.error e, w)
  | .ok (id, t) =>
    let (answer, service) := w.service.deleteMemento id t
    (answer.map fun found =>
      if found then "Removed memento " ++ t.write .offset ++ " of " ++ id.text
      else "No memento of " ++ id.text ++ " at " ++ t.write .offset, { w with service })

def execute (w : Workspace) (now : Instant) : Command → Except Error String × Workspace
  | .init => init w now
  | .get id at_ => (get w id at_, w)
  | .versions id => (versions w id, w)
  | .delete id => delete w id now
  | .deleteVersion id time => deleteVersion w id time
  | .config => (w.config.text, w)

/-! ## Runs -/

/-- The configuration of a file, or of a workspace. -/
def loadConfig (s : Surroundings) (workspace : String) : Option String → Except Error Config
  | some file => Config.loadFile s file
  | none => Config.load s workspace

def openWorkspace (s : Surroundings) (workspace : String) (file : Option String) (now : Instant)
    (process : UInt32 := 0) : Except Error Workspace × FileTree :=
  match (loadConfig s workspace file).bind Config.validated with
  | .error e => (.error e, s.files)
  | .ok config => Workspace.open s.files (Location.path s.here workspace) config now (.log []) 0 process

/-- What is logged where: options come before the configuration, a file is seen from the workspace. -/
def loggingConfig (s : Surroundings) (i : Invocation) : LoggingConfig :=
  let c := match loadConfig s i.workspace i.config with
    | .ok c => c.logging
    | .error _ => .standard
  { c with
    level := i.logLevel.getD (if i.verbose then "debug" else c.level)
    format := i.logFormat.getD c.format
    output := i.logOutput.getD c.output
    file := i.logFile.getD (Location.join i.workspace c.file) }

/-- What a run shows, and the code it ends with. -/
structure Outcome where
  code : UInt8
  out : String
  err : String
  deriving DecidableEq, Repr

def failure (message : String) : Outcome := ⟨1, "", message ++ "\n"⟩

/-- The answer of a command, shown. -/
def show_ : Except Error String → Outcome
  | .ok text => ⟨0, text ++ "\n", ""⟩
  | .error e => failure e.report

def runInvocation (s : Surroundings) (i : Invocation) (now : Instant) (process : UInt32) : Outcome × FileTree :=
  match Logging.start false s (loggingConfig s i) with
  | (.error f, files) => (failure ("Failed to initialize logging: " ++ f.error.message), files)
  | (.ok (), files) =>
    match openWorkspace { s with files } i.workspace i.config now process with
    | (.error e, files) => (failure e.report, files)
    | (.ok w, _) =>
      let (answer, w) := execute w now i.command
      (show_ answer, w.close)

/-- A run of the program; nothing is touched when its arguments cannot be understood. -/
def run (s : Surroundings) (args : List String) (now : Instant) (process : UInt32 := 0) :
    Except UsageFault (Outcome × FileTree) :=
  (parse args).map (runInvocation s · now process)

end LinkedData.CommandLine
