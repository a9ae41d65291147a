import CollectionTree.CommandLine.Span
import CollectionTree.Simulation.Document

/-!
# Arguments of the command line

Arguments are options with a value, which follows an equals sign or is the next argument, and flags
without one. Each may be given once. A value is looked at when the next option or flag begins, and
of several faults the first one found is told.
-/

namespace CollectionTree

/-- An option that has a value. -/
inductive ValueOption where
  | config
  | nodes
  | loss
  | seed
  | beaconInterval
  | sowInterval
  | flushInterval
  | duration
  | logLevel
  deriving DecidableEq, Repr

/-- An argument without a value. -/
inductive Switch where
  | noDetect
  | help
  | version
  deriving DecidableEq, Repr

/-- Why arguments are not taken, or what is shown instead. -/
inductive ArgumentError where
  | missingValue
  | repeated
  | unwantedValue
  | invalidValue
  | unexpected
  | help
  | version
  deriving DecidableEq, Repr

/-- What the arguments say. What they leave open keeps its setting; intervals are given as spans,
and `duration` says when to stop. -/
structure Arguments where
  path : String := "mesh-agg.yaml"
  nodes : Option Nat := none
  loss : Option Binary64 := none
  seed : Option UInt64 := none
  noDetect : Bool := false
  beaconInterval : Option Duration := none
  sowInterval : Option Duration := none
  flushInterval : Option Duration := none
  duration : Option Duration := none
  logLevel : String := "info"
  deriving DecidableEq, Repr

/-- The option with a name. -/
def ValueOption.ofName? : String → Option ValueOption
  | "config" => some config
  | "nodes" => some nodes
  | "loss" => some loss
  | "seed" => some seed
  | "beacon-interval" => some beaconInterval
  | "sow-interval" => some sowInterval
  | "flush-interval" => some flushInterval
  | "duration" => some duration
  | "log-level" => some logLevel
  | _ => none

/-- The flag with a name. -/
def Switch.ofName? : String → Option Switch
  | "no-detect" => some noDetect
  | "help" => some help
  | "version" => some version
  | _ => none

/-- The flag with a name of one letter. -/
def Switch.ofLetter? : Char → Option Switch
  | 'h' => some help
  | 'V' => some version
  | _ => none

namespace Arguments

/-- A number of nodes, which may have a sign. -/
def readNodes? (text : String) : Option Nat := do
  let n ← readSigned? text.toList
  if 0 ≤ n ∧ n ≤ 65535 then return n.toNat else none

/-- The arguments with the value of an option taken in. -/
def set? (args : Arguments) (value : String) : ValueOption → Option Arguments
  | .config => some { args with path := value }
  | .nodes => return { args with nodes := ← readNodes? value }
  | .loss => return { args with loss := ← Binary64.read? value.toList }
  | .seed => return { args with seed := some (← readUnsigned? maxWord value.toList).toUInt64 }
  | .beaconInterval => return { args with beaconInterval := ← Duration.ofTyped? value }
  | .sowInterval => return { args with sowInterval := ← Duration.ofTyped? value }
  | .flushInterval => return { args with flushInterval := ← Duration.ofTyped? value }
  | .duration => return { args with duration := ← Duration.ofTyped? value }
  | .logLevel => some { args with logLevel := value }

/-- Arguments as far as they were read: what they say, the options whose values were taken in, and
the option whose value comes next or was not taken in yet. -/
structure Progress where
  args : Arguments := {}
  given : List ValueOption := []
  waiting : Option (ValueOption × Option String) := none

/-- Take in the value of an option. -/
def Progress.take (p : Progress) (option : ValueOption) (value : String) :
    Except ArgumentError Progress :=
  if p.given.contains option then .error .repeated
  else if option = .config ∧ value.isEmpty then .error .missingValue
  else
    match p.args.set? value option with
    | some args => .ok { args, given := option :: p.given }
    | none => .error .invalidValue

/-- Take in the value that was not taken in yet, if there is one. -/
def Progress.settle (p : Progress) : Except ArgumentError Progress :=
  match p.waiting with
  | none => .ok p
  | some (_, none) => .error .missingValue
  | some (option, some value) => { p with waiting := none }.take option value

/-- Take in a flag. -/
def Progress.switch (p : Progress) (switch : Switch) : Except ArgumentError Progress := do
  let p ← p.settle
  match switch with
  | .help => .error .help
  | .version => .error .version
  | .noDetect =>
    if p.args.noDetect then .error .repeated
    else return { p with args := { p.args with noDetect := true } }

/-- An argument with a long name, and what stands after its equals sign. -/
def Progress.long (p : Progress) (name : String) (value : Option String) :
    Except ArgumentError Progress :=
  match ValueOption.ofName? name, Switch.ofName? name, value with
  | some option, _, some value => do (← p.settle).take option value
  | some option, _, none => return { (← p.settle) with waiting := some (option, none) }
  | none, some _, some _ => .error .unwantedValue
  | none, some switch, none => p.switch switch
  | none, none, _ => .error .unexpected

/-- The name and the value of a long argument. -/
def splitLong (cs : List Char) : String × Option String :=
  let name := String.ofList (cs.takeWhile (· != '='))
  match cs.dropWhile (· != '=') with
  | [] => (name, none)
  | _ :: value => (name, some (String.ofList value))

/-- Take in an argument. -/
def Progress.step (p : Progress) (arg : String) : Except ArgumentError Progress :=
  match arg.toList with
  | '-' :: '-' :: rest =>
    let (name, value) := splitLong rest
    p.long name value
  | '-' :: letter :: _ =>
    match Switch.ofLetter? letter with
    | some switch => p.switch switch
    | none => .error .unexpected
  | _ =>
    match p.waiting with
    | some (option, none) => .ok { p with waiting := some (option, some arg) }
    | _ => .error .unexpected

/-- Take in arguments one after another. After two dashes alone nothing more may come. -/
def Progress.run (p : Progress) : List String → Except ArgumentError Progress
  | [] => p.settle
  | "--" :: rest => if rest.isEmpty then p.settle else .error .unexpected
  | arg :: rest => do (← p.step arg).run rest

/-- What the arguments say. -/
def parse (args : List String) : Except ArgumentError Arguments :=
  return (← ({} : Progress).run args).args

/-- The milliseconds of a span, as far as a machine word holds them. -/
def millis (d : Duration) : Nat := min d.toMillis maxWord

/-- Settings with what the arguments say in place of what was set before. -/
def apply (args : Arguments) (s : Settings) : Settings :=
  { s with
    nodes := args.nodes.getD s.nodes
    loss := args.loss.getD s.loss
    seed := args.seed.or s.seed
    detect := s.detect && !args.noDetect
    beaconMillis := (args.beaconInterval.map millis).getD s.beaconMillis
    sowMillis := (args.sowInterval.map millis).getD s.sowMillis
    flushMillis := (args.flushInterval.map millis).getD s.flushMillis }

end Arguments

end CollectionTree
