/-!
# Scad.SessionLog

The directory with the logs of earlier sessions. A session that writes a log first removes the logs
that are older than a week.

* `SessionLog.isStale`: which entries go.
* `SessionLog.begun`: the directory after a session has begun.
-/

namespace Scad
namespace SessionLog

/-- An entry of the directory, with its age in hours, which is negative for a time to come. -/
structure Entry where
  name : String
  age : Int
  isDirectory : Bool
  deriving DecidableEq, Repr

/-- How many hours a log is kept. -/
def retention : Int := 7 * 24

/-- Whether a name is that of a log. -/
def isLogName (name : String) : Bool :=
  let s := name.toList
  "session-".toList.isPrefixOf s && ".log".toList.isSuffixOf s

/-- Whether an entry is a log that is too old. A directory is never removed. -/
def isStale (e : Entry) : Bool := isLogName e.name && decide (retention ≤ e.age) && !e.isDirectory

/-- The place for the directory of logs. -/
inductive Cache where
  /-- A file is in the way. -/
  | blocked
  /-- The directory is not there yet. -/
  | absent
  /-- The directory with its entries. -/
  | present (entries : List Entry)
  deriving DecidableEq, Repr

/-- The directory after a session has begun: the entries kept, how many logs were added, and whether
the directory exists. -/
structure Outcome where
  kept : List Entry
  created : Nat
  directory : Bool
  deriving DecidableEq, Repr

/-- A session begins. One that writes no log leaves everything as it is; one that does needs the
directory, which cannot be made if a file is in the way. -/
def begun (writesLog : Bool) : Cache → Option Outcome
  | .blocked => if writesLog then none else some ⟨[], 0, false⟩
  | .absent => some ⟨[], if writesLog then 1 else 0, writesLog⟩
  | .present entries =>
    if writesLog then some ⟨entries.filter fun e => !isStale e, 1, true⟩
    else some ⟨entries, 0, true⟩

end SessionLog
end Scad
