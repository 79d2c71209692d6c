/-!
# Log

A log is the list of the entries written so far, oldest first. `Console` is what a terminal shows of
them: nothing before it is opened, and afterwards the entries at or above its level.
-/

namespace LiveLoader

inductive Level where
  | trace | debug | info | warn | error
  deriving DecidableEq, Repr

namespace Level

def rank : Level → Nat
  | trace => 0 | debug => 1 | info => 2 | warn => 3 | error => 4

def name : Level → String
  | trace => "TRACE" | debug => "DEBUG" | info => "INFO" | warn => "WARN" | error => "ERROR"

/-- The levels that a console can be opened with. -/
def ofName? : String → Option Level
  | "debug" => some debug | "info" => some info | "warn" => some warn | "error" => some error
  | _ => none

end Level

structure LogEntry where
  level : Level
  text : String
  deriving DecidableEq, Repr

namespace LogEntry

def info (text : String) : LogEntry := ⟨.info, text⟩
def warn (text : String) : LogEntry := ⟨.warn, text⟩
def error (text : String) : LogEntry := ⟨.error, text⟩

/-- Level, a blank, text. -/
def line (e : LogEntry) : String := e.level.name ++ " " ++ e.text

/-- The same with the level set right in five columns. -/
def column (e : LogEntry) : String :=
  String.ofList (List.replicate (5 - e.level.name.length) ' ') ++ e.line

end LogEntry

abbrev Log := List LogEntry

/-- A console shows entries from the level that it was first opened with. -/
structure Console where
  level : Option Level := none
  deriving Repr

namespace Console

def standardLevel : Level := .info

/-- Only the first opening counts. -/
def openWith (c : Console) (l : Level) : Console := ⟨c.level.or (some l)⟩

def shows (c : Console) (e : LogEntry) : Bool :=
  c.level.any fun l => l.rank ≤ e.level.rank

def render (c : Console) (log : Log) : List String := (log.filter c.shows).map LogEntry.column

end Console

end LiveLoader
