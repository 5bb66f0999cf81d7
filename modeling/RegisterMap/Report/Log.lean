/-!
# Log entries

Messages with a level of importance.
-/

namespace RegisterMap.Report

inductive Level where
  | debug
  | info
  | warning
  | error
  deriving DecidableEq, Repr

namespace Level

def word : Level → String
  | debug => "DEBUG"
  | info => "INFO"
  | warning => "WARNING"
  | error => "ERROR"

def rank : Level → Nat
  | debug => 0
  | info => 1
  | warning => 2
  | error => 3

/-- The least level that is shown when more output was asked for some number of times. -/
def ofVerbosity : Nat → Level
  | 0 => error
  | 1 => warning
  | 2 => info
  | _ => debug

end Level

structure LogEntry where
  level : Level
  message : String
  deriving DecidableEq, Repr

/-- The entries that are at least as important as a level. -/
def shownFrom (level : Level) (entries : List LogEntry) : List LogEntry :=
  entries.filter fun entry => level.rank ≤ entry.level.rank

end RegisterMap.Report
