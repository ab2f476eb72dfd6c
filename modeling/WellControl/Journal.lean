/-!
# Journals

Messages are recorded while wells are evaluated and replayed afterwards.
-/

set_option autoImplicit false

namespace WellControl

inductive Severity where
  | debug
  | info
  | warning
  | error
deriving DecidableEq, Repr

def Severity.level : Severity → Int
  | debug => 10
  | info => 20
  | warning => 30
  | error => 40

/-- One message.  The tag names its kind. -/
structure Record where
  severity : Severity
  message : String
  tag : Option String := none
deriving DecidableEq, Repr

def Record.info (message : String) : Record := { severity := .info, message }

def Record.debug (message : String) : Record := { severity := .debug, message }

def Record.warning (tag message : String) : Record :=
  { severity := .warning, message, tag := some tag }

def Record.error (tag message : String) : Record :=
  { severity := .error, message, tag := some tag }

def Record.line (r : Record) : String :=
  match r.tag with
  | some tag => "[" ++ tag ++ "] " ++ r.message
  | none => r.message

abbrev Journal := List Record

namespace Journal

def messages (j : Journal) : List String := j.map Record.message

def tags (j : Journal) (level : Option Int) : List String :=
  j.filterMap fun r => if level.all (· = r.severity.level) then r.tag else none

/-- What a replay delivers: each line with its level, information at the level given.  Nothing
at level zero or below is delivered. -/
def replay (j : Journal) (infoLevel : Int) : List (Int × String) :=
  (j.map fun r =>
      (if r.severity = .info then infoLevel else r.severity.level, r.line)).filter
    fun l => 0 < l.1

end Journal
end WellControl
