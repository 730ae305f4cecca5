import RecordApi.Console.Frame
import RecordApi.Console.Grid

/-!
# Logging to the console

A program of log steps is run on a `Logger`, which knows the least level that is shown
and how deep the steps are nested.  Each shown step prints an entry.  An entry whose
markup is broken cannot be printed; it ends the program, yet blocks that are open at that
time are left in order: a timed block still tells its duration and an indented block
still takes its indentation back.
-/

namespace RecordApi
namespace Console

/-- The levels by their numbers; a step is shown when its number is not below the least
one. -/
inductive Level where
  | debug
  | info
  | warning
  | error
deriving DecidableEq, Repr

def Level.number : Level → Int
  | .debug => 10
  | .info => 20
  | .warning => 30
  | .error => 40

inductive Mark where
  | debug
  | info
  | success
  | warn
  | error
deriving DecidableEq, Repr

namespace Mark

def level : Mark → Level
  | .debug => .debug
  | .info => .info
  | .success => .info
  | .warn => .warning
  | .error => .error

/-- The mark in front of a message, with its style. -/
def markup : Mark → String
  | .debug => Markup.styled "dim" "·"
  | .info => Markup.styled "blue" "•"
  | .success => Markup.styled "green" "✓"
  | .warn => Markup.styled "yellow" "!"
  | .error => Markup.styled "bold red" "✗"

end Mark

inductive Entry where
  | message (indent : Nat) (mark : Mark) (text : String)
  | section (title : String)
  | grid (grid : Grid)
  /-- A text or a box that is printed whatever the level is. -/
  | lines (lines : List (List Char))

namespace Entry

/-- A message in the form in which it is printed: two blanks for each level of
indentation, its mark and its text. -/
def messageMarkup (indent : Nat) (mark : Mark) (text : String) : String :=
  String.ofList (blanks (2 * indent)) ++ mark.markup ++ " " ++ text

/-- The lines of an entry on a console of `n` columns; none if its markup is broken. -/
def lines? (n : Nat) : Entry → Option (List (List Char))
  | message indent mark text =>
      (Markup.plain? (messageMarkup indent mark text)).map (wrap .fold n)
  | «section» title => (Markup.plain? (Markup.styled "bold" title)).map fun t => [rule n t]
  | grid g => g.lines? n
  | lines ls => some ls

end Entry

/-- A logger and what it has printed so far. -/
structure Logger where
  width : Nat := 80
  /-- The number of the least level that is shown. -/
  least : Int := Level.info.number
  /-- How many indented blocks are open. -/
  indent : Nat := 0
  output : List String := []

/-- A program of log steps. -/
inductive Step where
  | message (mark : Mark) (text : String)
  | section (title : String)
  | grid (headers : List String) (rows : List (List String))
  | setLevel (number : Int)
  | indented (steps : List Step)
  | timed (label : String) (steps : List Step)

/-- How a program ends. -/
inductive Ending where
  | completed
  /-- The markup of an entry was broken. -/
  | raised
deriving DecidableEq, Repr

namespace Logger

def shows (logger : Logger) (level : Level) : Bool :=
  logger.least ≤ level.number

def print (logger : Logger) (entry : Entry) : Logger × Ending :=
  match entry.lines? logger.width with
  | some lines => ({ logger with output := logger.output ++ lines.map printed }, .completed)
  | none => (logger, .raised)

/-- Prints an entry if its level is shown. -/
def printAt (logger : Logger) (level : Level) (entry : Entry) : Logger × Ending :=
  if logger.shows level then logger.print entry else (logger, .completed)

def message (logger : Logger) (mark : Mark) (text : String) : Logger × Ending :=
  logger.printAt mark.level (.message logger.indent mark text)

def «section» (logger : Logger) (title : String) : Logger × Ending :=
  logger.printAt .info (.section title)

def grid (logger : Logger) (headers : List String) (rows : List (List String)) :
    Logger × Ending :=
  logger.printAt .info (.grid ⟨headers.map fun header => { header }, rows, true⟩)

/-- The duration line of a timed block.  Durations are not measured: the letter `T` stands
for any. -/
def duration (logger : Logger) (label : String) : Logger × Ending :=
  logger.message .info (label ++ " " ++ Markup.styled "dim" "(T ms)")

mutual

def run (logger : Logger) : Step → Logger × Ending
  | .message mark text => logger.message mark text
  | .section title => logger.section title
  | .grid headers rows => logger.grid headers rows
  | .setLevel number => ({ logger with least := number }, .completed)
  | .indented steps =>
      let (inner, ending) := runAll { logger with indent := logger.indent + 1 } steps
      ({ inner with indent := inner.indent - 1 }, ending)
  | .timed label steps =>
      let (inner, ending) := runAll logger steps
      let (after, last) := inner.duration label
      (after, if last = .raised then .raised else ending)

/-- Runs steps up to the first one that cannot be printed. -/
def runAll (logger : Logger) : List Step → Logger × Ending
  | [] => (logger, .completed)
  | step :: rest =>
      match run logger step with
      | (next, .completed) => runAll next rest
      | (next, .raised) => (next, .raised)

end

end Logger
end Console
end RecordApi
