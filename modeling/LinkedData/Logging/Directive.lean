/-
  LinkedData.Logging.Directive — what to log of which module.

  A directive names a level, or a target, a span in brackets with its fields in braces, and a
  level after an equals sign. A field may have a value: a flag, a number or a pattern. `check`
  says whether a text is a directive, reading it character by character; a part is checked as
  soon as it ends. Places in the text are counted in bytes. Blanks around a text are not read,
  but they are there when a part of it is cut out, so that only a text without them is read as
  it looks.
-/

import LinkedData.Decimal.Reader
import LinkedData.Pattern.Reader
import LinkedData.Settings
import LinkedData.Text.Blank
import LinkedData.Text.Letter

namespace LinkedData.Directive

inductive Fault
  | level
  | form
  | field (fault : Pattern.Fault)
  deriving DecidableEq, Repr

def Fault.message : Fault → String
  | level => "error parsing level filter: expected one of \"off\", \"error\", \"warn\", \"info\", \"debug\", " ++
      "\"trace\", or a number 0-5"
  | form => "invalid filter directive"
  | field f => "invalid field filter: " ++ f.message

def levels : List String := ["off", "error", "warn", "info", "debug", "trace"]

/-- A level by its name in any case, or by its number. -/
def isLevel (cs : List Char) : Bool :=
  cs = [] || levels.contains (String.ofList (cs.map Char.toLower)) || (Setting.digits? 5 (String.ofList cs)).isSome

/-- What is being read, and where it began. -/
inductive State
  | start
  | levelOrTarget
  | span
  | field (from_ : Nat)
  | fields
  | target
  | level (from_ : Nat)
  | complete
  deriving DecidableEq

/-- A target begins with a letter, a digit or one of three marks. -/
def startsTarget (c : Char) : Bool := ['-', ':', '_'].contains c || Text.isLetterOrNumber c

/-- What follows the first `n` bytes. -/
def after : Nat → List Char → List Char
  | 0, cs => cs
  | _, [] => []
  | n + 1, c :: cs => after (n + 1 - c.utf8Size) cs

/-- The first `n` bytes. -/
def upTo : Nat → List Char → List Char
  | 0, _ => []
  | _, [] => []
  | n + 1, c :: cs => c :: upTo (n + 1 - c.utf8Size) cs

/-- The part of `text` from one place up to another. -/
def between (text : List Char) (a b : Nat) : List Char := upTo (b - a) (after a text)

/-- What stands between the first two equals signs of a field. -/
def fieldValue (cs : List Char) : List Char := ((cs.dropWhile (· ≠ '=')).drop 1).takeWhile (· ≠ '=')

/-- A flag or a number. -/
def isPlainValue (cs : List Char) : Bool :=
  cs = "true".toList || cs = "false".toList || (Binary64.ofText? cs).isSome

/-- A field has a name, and perhaps a value. -/
def checkField (cs : List Char) : Except Fault Unit :=
  if cs = [] then .error .form
  else if isPlainValue (fieldValue cs) then .ok ()
  else (Pattern.check (fieldValue cs)).mapError .field

def levelEnd (cs : List Char) : Except Fault State := if isLevel cs then .ok .complete else .error .level

/-- One character, at the place `i`. -/
def step (text : List Char) (i : Nat) (c : Char) : State → Except Fault State
  | .start => if c = '[' then .ok .span else if startsTarget c then .ok .levelOrTarget else .error .form
  | .levelOrTarget =>
    .ok (if c = '=' then .level (i + 1) else if c = '[' then .span else if c = ',' then .complete else .levelOrTarget)
  | .target => if c = '=' then .ok (.level (i + 1)) else .error .form
  | .span => .ok (if c = ']' then .target else if c = '\x7b' then .field (i + 1) else .span)
  | .field a =>
    if c = '\x7d' ∨ c = ',' then
      (checkField (between text a i)).map fun _ => if c = ',' then .field (i + 1) else .fields
    else .ok (.field a)
  | .fields => if c = ']' then .ok .target else .error .form
  | .level a => if c = ',' then levelEnd (between text a i) else .ok (.level a)
  | .complete => .error .form

def steps (text : List Char) : Nat → State → List Char → Except Fault State
  | _, s, [] => .ok s
  | i, s, c :: cs => step text i c s >>= fun s => steps text (i + c.utf8Size) s cs

/-- The text is a directive; it does not end inside brackets. -/
def check (text : String) : Except Fault Unit := do
  let cs := text.toList
  match ← steps cs 0 .start (Text.trim cs) with
  | .level a => if isLevel (after a cs) then .ok () else .error .level
  | .levelOrTarget | .target | .complete => .ok ()
  | _ => .error .form

/-- What stands between commas. -/
def parts (text : String) : List String := (text.splitOn ",").filter (· ≠ "")

/-- Every part of the text is a directive. -/
def checkAll (text : String) : Except Fault Unit := (parts text).forM check

end LinkedData.Directive
