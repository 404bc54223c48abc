import SourceTidy.Text.Basic

/-!
# Help and version

The texts that the program prints about itself when it is asked to.
-/

namespace SourceTidy
namespace CommandLine

def helpLines : List String :=
  ["Replace tabs, fix indentation width and normalize documentation blocks",
   "",
   "Usage: codefmt [OPTIONS] <PATH>",
   "",
   "Arguments:",
   "  <PATH>  Source file or directory to process",
   "",
   "Options:",
   "  -w, --indent-width <NUM>  Target indentation width in spaces [default: 2]",
   "      --no-tabs             Do not replace tab characters",
   "      --no-indent           Do not rewrite indentation",
   "      --no-docu             Do not normalize the documentation block",
   "  -n, --simulate            Show which files would change without writing them",
   "  -e, --exclude <PATTERN>   Exclude files/directories matching pattern (glob syntax, " ++
     "can be repeated)",
   "  -x, --skip-ext <EXT>      Additional file extension to skip (can be repeated, " ++
     "e.g., -x md -x json)",
   "  -c, --config <FILE>       Path to configuration file (overrides auto-discovery)",
   "  -D, --debug               Enable debug output (shows config, inferred widths, block spans)",
   "  -S, --silent              Silent mode (only errors are printed)",
   "  -h, --help                Print help",
   "  -V, --version             Print version"]

def helpText : Text :=
  helpLines.flatMap fun line => line.toList ++ ['\n']

def versionText : Text :=
  "codefmt 0.1.0\n".toList

end CommandLine
end SourceTidy
