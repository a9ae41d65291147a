import CollectionTree.CommandLine.Arguments

/-!
# What the command line tells
-/

namespace CollectionTree

/-- The name and the version of the program. -/
def versionText : String := "mesh-agg 0.1.0"

/-- How the program is used. -/
def usageText : String := String.intercalate "\n"
  ["In-network aggregation over a simulated sensor mesh",
    "",
    "Usage: mesh-agg [OPTIONS]",
    "",
    "Options:",
    "      --config <CONFIG>                    Configuration file path [default: mesh-agg.yaml]",
    "      --nodes <NODES>                      Number of nodes, sink included",
    "      --loss <LOSS>                        Per-attempt loss probability, e.g. 0.2",
    "      --seed <SEED>                        Seed for reproducible runs",
    "      --no-detect                          Disable the urgent sighting job",
    "      --beacon-interval <BEACON_INTERVAL>  Discovery round period, e.g. 1s",
    "      --sow-interval <SOW_INTERVAL>        Sensing period, e.g. 500ms",
    "      --flush-interval <FLUSH_INTERVAL>    Nominal flush interval of each job, e.g. 10s",
    "      --duration <DURATION>                Stop after this long, e.g. 2m",
    "      --log-level <LOG_LEVEL>              Log level [default: info]",
    "  -h, --help                               Print help",
    "  -V, --version                            Print version"]

/-- What is told about arguments that are not taken. -/
def ArgumentError.message : ArgumentError → String
  | missingValue => "error: a value is required for an option but none was supplied"
  | repeated => "error: an argument cannot be used multiple times"
  | unwantedValue => "error: unexpected value for a flag found; no more were expected"
  | invalidValue => "error: invalid value for an option"
  | unexpected => "error: unexpected argument found"
  | help => usageText
  | version => versionText

/-- The code with which the program ends when arguments are not taken. -/
def ArgumentError.exitCode : ArgumentError → UInt8
  | help => 0
  | version => 0
  | _ => 2

end CollectionTree
