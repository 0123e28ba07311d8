import CrateDocs.Command.Request

namespace CrateDocs.Command

-- The line that says how the program is called.
def usage : String := "usage: oxidoc [-h] [-V] [-g CRATE_DIR] [-v] [query ...]\n"

-- The lines that the program says about itself when asked for help, below the one on its usage.
def helpLines : List String :=
  ["",
    "A command line interface to Rust documentation.",
    "",
    "positional arguments:",
    "  query                 Function name(s) to look up, optionally qualified",
    "                        (mod::name)",
    "",
    "options:",
    "  -h, --help            show this help message and exit",
    "  -V, --version         Print version info",
    "  -g CRATE_DIR, --generate CRATE_DIR",
    "                        Generate documentation for the crate root directory,",
    "                        or 'all' to regenerate every registry crate",
    "  -v, --verbose         Enable debug logging"]

def help : String :=
  usage ++ String.join (helpLines.map (· ++ "\n"))

def versionLine : String := "oxidoc 0.1.0\n"

-- What is said about a misused command line.
def misuseText (misuse : Misuse) : String :=
  usage ++ s!"oxidoc: error: {misuse.message}\n"

end CrateDocs.Command
