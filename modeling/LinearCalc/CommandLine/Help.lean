import LinearCalc.CommandLine.Opt
import LinearCalc.Text.Characters

set_option autoImplicit false

/-! # Help on the command line

The texts that explain the command line.
-/

namespace LinearCalc.CommandLine

def programName : String := "matcalc"

def programVersion : String := "1.0.0"

def usageText : String :=
  printLines
    ["usage: matcalc [-h] [-e EVAL_EXPR] [--format \x7bjson,human\x7d] [-p PRECISION]",
      "               [--latex] [--tokens] [--tree] [--plot NAME=EXPR]",
      "               [--output OUTPUT] [--zoom ZOOM] [-v]",
      "               [--log-level \x7bDEBUG,INFO,WARNING,ERROR\x7d] [--log-file LOG_FILE]",
      "               [--health-check]"]

def helpText : String :=
  usageText ++
    printLines
      ["",
        "options:",
        "  -h, --help            show this help message and exit",
        "  -e EVAL_EXPR, --eval EVAL_EXPR",
        "                        Evaluate one expression and exit (non-interactive)",
        "  --format \x7bjson,human\x7d",
        "                        Output format: json (machine-readable) or human",
        "                        (human-readable)",
        "  -p PRECISION, --precision PRECISION",
        "                        Set output precision (significant digits)",
        "  --latex               Also print the result as LaTeX",
        "  --tokens              Print the tokens of --eval instead",
        "  --tree                Print the parsed tree of --eval instead",
        "  --plot NAME=EXPR      Plot a 1xn or 2xn matrix as vectors (repeatable)",
        "  --output OUTPUT       PNG file for --plot",
        "  --zoom ZOOM           Pixels per graph unit for --plot",
        "  -v, --version         Show program version",
        "  --log-level \x7bDEBUG,INFO,WARNING,ERROR\x7d",
        "                        Set logging level",
        "  --log-file LOG_FILE   Write logs to file",
        "  --health-check        Run health check and verify dependencies"]

def UsageError.text (e : UsageError) : String :=
  usageText ++ programName ++ ": error: " ++ e.message ++ "\n"

end LinearCalc.CommandLine
