/-!
# Help text

What the program says about its options.

## Main definitions

* `usage`: the whole help text
-/

namespace NaturalDeduction

def usage : String :=
  "\n".intercalate
    ["usage: run_fitch.py [-h] [-s SCRIPT] [--strict] [--ascii] [-g GRAPH]",
     "                    [--graph-format GRAPH_FORMAT] [--stop-on-error] [-v]",
     "                    [--debug]",
     "",
     "Fitchpad natural deduction proof assistant",
     "",
     "options:",
     "  -h, --help            show this help message and exit",
     "  -s SCRIPT, --script SCRIPT",
     "                        Replay commands from a script file",
     "  --strict              Reject citations of lines and subproofs that are out",
     "                        of scope",
     "  --ascii               Render formulas with ASCII symbols",
     "  -g GRAPH, --graph GRAPH",
     "                        Write the justification graph to this file (Graphviz)",
     "  --graph-format GRAPH_FORMAT",
     "                        Graphviz output format (default: png)",
     "  --stop-on-error       Stop replaying a script at the first rejected command",
     "  -v, --verbose         Echo every command and its result",
     "  --debug               Enable debug output",
     "",
     "Examples:",
     "  python run_fitch.py",
     "  python run_fitch.py -s proof.fitch",
     "  python run_fitch.py -s proof.fitch --strict --graph modus_ponens",
     "",
     "Script file format (one command per line, '#' starts a comment):",
     "  assume (A => B)",
     "  assume A",
     "  elim implies 0 1",
     "        ",
     ""]

end NaturalDeduction
