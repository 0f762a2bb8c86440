/-!
This module contains what the command says about itself.
-/

namespace ComponentTree.CommandLine

def closedLines (lines : List String) : String :=
  String.join (lines.map (· ++ "\n"))

def versionText : String :=
  closedLines ["vue-component-graph 0.2.0"]

def shortHelp : String :=
  closedLines
    ["Show which components a Vue component transitively uses",
      "",
      "Usage: vue-component-graph [OPTIONS] <TARGETS>...",
      "",
      "Arguments:",
      "  <TARGETS>...  Entry component files",
      "",
      "Options:",
      "  -r, --root <DIR>       Directory to scan for component files [default: current directory]",
      "  -o, --output <FORMAT>  Output format [default: ascii] [possible values: ascii, html,"
        ++ " json]",
      "  -d, --depth <N>        Maximum depth to print (1 = direct dependencies only)",
      "      --sorted           Walk directories in name order so same-named files resolve the same"
        ++ " way on every platform",
      "  -c, --config <FILE>    Read defaults from a TOML file",
      "  -v, --verbose          Log debug output to stderr",
      "  -q, --quiet            Log errors only",
      "  -h, --help             Print help (see more with '--help')",
      "  -V, --version          Print version"]

def longHelp : String :=
  closedLines
    ["Scans a directory for .vue files, infers component dependencies from named imports and custom"
        ++ " tags, and prints the tree below each target.",
      "",
      "Usage: vue-component-graph [OPTIONS] <TARGETS>...",
      "",
      "Arguments:",
      "  <TARGETS>...",
      "          Entry component files",
      "",
      "Options:",
      "  -r, --root <DIR>",
      "          Directory to scan for component files [default: current directory]",
      "",
      "  -o, --output <FORMAT>",
      "          Output format [default: ascii]",
      "",
      "          Possible values:",
      "          - ascii: Plain-text tree per target",
      "          - html:  Interactive HTML document",
      "          - json:  Nested JSON document",
      "",
      "  -d, --depth <N>",
      "          Maximum depth to print (1 = direct dependencies only)",
      "",
      "      --sorted",
      "          Walk directories in name order so same-named files resolve the same way on every"
        ++ " platform",
      "",
      "  -c, --config <FILE>",
      "          Read defaults from a TOML file",
      "",
      "  -v, --verbose",
      "          Log debug output to stderr",
      "",
      "  -q, --quiet",
      "          Log errors only",
      "",
      "  -h, --help",
      "          Print help (see a summary with '-h')",
      "",
      "  -V, --version",
      "          Print version"]

end ComponentTree.CommandLine
