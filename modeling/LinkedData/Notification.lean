/-
  LinkedData.Notification — news of commits, and where it is sent.

  A sink takes one notification at a time and may fail; what becomes of the commit does not
  depend on it. Sinks are a class, so that what is said of a service holds for any of them;
  `Sink` has the ones that the platform comes with.
-/

import LinkedData.Error
import LinkedData.Instant.Rfc3339
import LinkedData.Json

namespace LinkedData

open Vocabulary

inductive ChangeKind
  | created
  | updated
  | deleted
  deriving DecidableEq, Repr

namespace ChangeKind

def all : List ChangeKind := [created, updated, deleted]

def name : ChangeKind → String
  | created => "Created"
  | updated => "Updated"
  | deleted => "Deleted"

def ofName? (name : String) : Option ChangeKind := all.find? (·.name == name)

/-- The type of the activity that made the change. -/
def activity : ChangeKind → Iri
  | created => Activity.create
  | updated => Activity.update
  | deleted => Activity.delete

/-- The activity's name within its vocabulary. -/
def verb : ChangeKind → String
  | created => "Create"
  | updated => "Update"
  | deleted => "Delete"

end ChangeKind

structure Notification where
  id : Iri
  resource : Iri
  model : InteractionModel
  agent : Iri
  time : Instant
  kind : ChangeKind
  deriving DecidableEq, Repr

namespace Notification

/-- The id of the `count`-th notification of a process, made at `now`. -/
def idOf (now : Instant) (process count : Nat) : Iri :=
  ⟨"urn:ldp-store:event:" ++ toString now.milliseconds ++ "-" ++ toString process ++ "-" ++ toString count⟩

/-- The notification as an activity: who did what to which resource, and when. -/
def activityStream (n : Notification) : Json :=
  .object [
    ("@context", .text Activity.context.text),
    ("id", .text n.id.text),
    ("type", .list [.text n.kind.verb]),
    ("actor", .list [.text n.agent.text]),
    ("object", .object [("id", .text n.resource.text), ("type", .list [.text n.model.iri.text])]),
    ("published", .text (n.time.write .short))]

end Notification

/-- Where notifications are sent. -/
class EventSink (ε : Type) where
  emit : ε → Notification → Except Error Unit × ε

inductive Sink
  /-- To a receiver, which finds them in the order they were sent. -/
  | channel (waiting : List Notification)
  /-- A channel whose receiver is gone. -/
  | closed
  /-- Written to the log, as activities. -/
  | log (written : List Json)
  | discard
  /-- A transport that is out of order. -/
  | broken

namespace Sink

def emit : Sink → Notification → Except Error Unit × Sink
  | channel waiting, n => (.ok (), channel (waiting ++ [n]))
  | closed, _ => (.error (.internal "Notification receiver dropped: sending on a closed channel"), closed)
  | log written, n => (.ok (), log (written ++ [n.activityStream]))
  | discard, _ => (.ok (), discard)
  | broken, _ => (.error (.internal "Notification transport is out of order"), broken)

/-- Everything that waits, taken out. -/
def receive : Sink → List Notification × Sink
  | channel waiting => (waiting, channel [])
  | s => ([], s)

instance : EventSink Sink := ⟨emit⟩

end Sink

end LinkedData
