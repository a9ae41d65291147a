import CollectionTree.Log.Quoted

/-!
# Log lines

A line tells when something happened, in which part of the program, how grave it is, and what it is
about. The first columns have a fixed width, and colours are used where the terminal has them.
-/

namespace CollectionTree.Log

/-- How grave an event is. -/
inductive Level where
  | error
  | warn
  | info
  | debug
  | trace
  deriving DecidableEq, Repr

/-- What the level's column says. -/
def Level.label : Level → String
  | error => "✗ ERROR"
  | warn => "⚠ WARN"
  | info => "ℹ INFO"
  | debug => "◦ DEBUG"
  | trace => "◦ TRACE"

/-- The place of a level among all, the gravest first. -/
def Level.rank : Level → Nat
  | error => 1
  | warn => 2
  | info => 3
  | debug => 4
  | trace => 5

/-- The level with a name, in letters of either case. -/
def Level.ofName? (name : String) : Option Level :=
  match name.toLower with
  | "error" => some error
  | "warn" => some warn
  | "info" => some info
  | "debug" => some debug
  | "trace" => some trace
  | _ => none

/-- The level at which a part of the program reports by its own name. There it has four levels, and
what is finer than a detail counts as a detail. -/
def Level.ofComponent : Level → Level
  | trace => debug
  | level => level

/-- The greatest rank that is logged where this much is asked for. -/
def thresholdOf? (name : String) : Option Nat :=
  if name.toLower = "off" then some 0 else (Level.ofName? name).map Level.rank

/-- What switches a terminal to a colour, or back. -/
def colorCode (number : Nat) : String := s!"\x1b[{number}m"

/-- The colour of a level. -/
def Level.color : Level → String
  | error => colorCode 91
  | warn => colorCode 93
  | info => colorCode 32
  | debug => colorCode 90
  | trace => colorCode 90

/-- Something that happened in a part of the program, and what is known about it besides: names, and
values as they are written. -/
structure Event where
  level : Level
  component : Option String := none
  message : String
  fields : List (String × String) := []

/-- How lines are written: what stands for a part of the program that is not known, and whether in
colour. -/
structure Format where
  service : String
  colored : Bool
  deriving DecidableEq, Repr

/-- The format for a kind of terminal, of which `dumb` ones and missing ones have no colours. -/
def Format.forTerminal (service : String) (terminal : Option String) : Format :=
  ⟨service, terminal.any (· != "dumb")⟩

/-- The columns of a component. -/
def componentWidth : Nat := 14

/-- The columns of a level. -/
def levelWidth : Nat := 9

/-- A text with blanks after it, so that it fills some columns. -/
def fill (width : Nat) (text : String) : String := text.pushn ' ' (width - text.length)

/-- What the component's column says: a name that is too long is cut, and a mark says so. -/
def Format.componentColumn (format : Format) (component : Option String) : String :=
  let name := match component with
    | some component => "agg-" ++ component
    | none => format.service
  if name.length > componentWidth then
    String.ofList (name.toList.take (componentWidth - 1)) ++ "…"
  else fill componentWidth name

/-- The line about an event that happened at some time. -/
def Format.line (format : Format) (time : String) (event : Event) : String :=
  let paint := fun code ↦ if format.colored then code else ""
  let reset := paint (colorCode 0)
  let fields := String.join (event.fields.map fun (name, value) ↦ s!" {name}={value}")
  paint (colorCode 36) ++ "[" ++ time ++ "] [" ++ format.componentColumn event.component ++ "] [" ++
    paint event.level.color ++ fill levelWidth event.level.label ++ reset ++ "] " ++
    event.message ++ fields ++ reset

end CollectionTree.Log
