/-
  AnnotationCache.CommandLine.Usage
  ─────────────────────────────────
  **WHAT IS SAID ABOUT THE COMMAND LINE ITSELF.**
-/
import AnnotationCache.CommandLine.Arguments

namespace AnnotationCache.CommandLine

/-- How the program is called. -/
def usage : String :=
  String.intercalate "\n"
    ["Read class, method and property annotations through a dependency-aware cache",
     "",
     "Usage: annotation-reader [OPTIONS] --manifest <FILE> --class <CLASS>",
     "",
     "Options:",
     "      --manifest <FILE>      Type manifest describing the declared types (JSON or YAML)",
     "      --class <CLASS>        Fully-qualified class to read (e.g. App\\Controller)",
     "      --method <METHOD>      Read the annotations of this method instead of the class",
     "      --property <PROPERTY>  Read the annotations of this property instead of the class",
     "      --cache-dir <DIR>      Cache directory (defaults to ~/.cache/annotation-reader)",
     "      --no-cache             Bypass the cache entirely",
     "      --clear-cache          Remove every cached entry before reading",
     "      --debug                Re-check source modification times on every cached read",
     "  -f, --format <FORMAT>      Output format (json, text) [default: json] "
       ++ "[possible values: json, text]",
     "  -v, --verbose...           Increase verbosity (-v info, -vv debug, -vvv trace)",
     "  -q, --quiet                Suppress all output except errors",
     "  -h, --help                 Print help"]

/-- Why a command line is not run. -/
def UsageError.message : UsageError → String
  | .missingArgument => "error: --manifest <FILE> and --class <CLASS> must be given"
  | .conflict => "error: some of the arguments cannot be used together"
  | .invalidValue => "error: an option has no value or one that it cannot take"
  | .unknownArgument => "error: unexpected argument"
  | .tooManyValues => "error: a value was given to an option that takes none"
  | .helpWanted => usage

/-- The exit code for a command line that is not run. -/
def UsageError.exitCode : UsageError → UInt32
  | .helpWanted => 0
  | _ => 2

end AnnotationCache.CommandLine
