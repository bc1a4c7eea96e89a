/-!
# Usage

How the program is used, as it tells when it is asked.
-/

namespace SolidScript.Command

/-- The commands and their options, line by line. -/
def usageLines : List String :=
  ["Parametric OpenSCAD script generator",
   "",
   "Usage: scadgen [OPTIONS] <COMMAND>",
   "",
   "Commands:",
   "  build <INPUTS>...  Build node documents (JSON) and render them to OpenSCAD",
   "      -o, --output <FILE>   Output file",
   "      --pretty              One statement per line instead of the compact form",
   "  axis               Normalize axis bounds and generate the axis reference module",
   "      --min-x <N>, --max-x <N>, --min-y <N>, --max-y <N>, --min-z <N>, --max-z <N>",
   "      -u, --unit <UNIT>     Unit system (metric, imperial)",
   "      -t, --theme <THEME>   Background theme (light, dark)",
   "      -o, --output <FILE>   Output file for the module script",
   "      --json                Print the full result as JSON",
   "  kinds [KIND]       List node kinds, or the parameters of one kind",
   "      --json                Print as JSON",
   "  version            Show version information",
   "",
   "Options:",
   "  -c, --config <FILE>  Configuration file (defaults to ./scadgen.toml when present)",
   "  -v, --verbose        Verbose output",
   "  -h, --help           Print help"]

/-- How the program is used. -/
def usage : String := String.join (usageLines.map fun line => line ++ "\n")

end SolidScript.Command
