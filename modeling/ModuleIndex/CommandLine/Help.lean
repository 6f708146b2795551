/-!
# Help

The texts that explain the command line: a short one, and a long one that leaves room for each
argument.
-/

namespace ModuleIndex.CommandLine

def helpHead : List String := [
  "Show the sidebar item index of a documented module",
  "",
  "Usage: sidebar [OPTIONS] [CRATE_SPEC] [FILTER]",
  ""]

/-- The lines below the arguments. -/
def helpExamples : List String := [
  "EXAMPLES:",
  "  sidebar env_logger                    Crate root (version from Cargo.toml)",
  "  sidebar env_logger@0.9.0::fmt         Module of an explicit version",
  "  sidebar env_logger init               Items matching 'init'",
  "  sidebar env_logger --file items.js    Read a local sidebar-items.js"]

def shortHelpArguments : List String := [
  "Arguments:",
  "  [CRATE_SPEC]  Module path: crate[@version][::module] (e.g., \"env_logger\", " ++
    "\"tokio@1.0::sync\")",
  "  [FILTER]      Only show items whose name matches (suffix first, then substring)",
  "",
  "Options:",
  "      --file <PATH>      Read sidebar items from a local file instead of docs.rs",
  "      --format <FORMAT>  How to print the index [default: sidebar] [possible " ++
    "values: sidebar, list, json, js]",
  "      --no-cache         Skip cache and download fresh sidebar items",
  "      --clear-cache      Clear the entire cache directory",
  "      --color <WHEN>     When to use colors in output [default: auto]",
  "  -v, --verbose          Log progress to stderr (RUST_LOG takes precedence)",
  "  -h, --help             Print help (see more with '--help')",
  ""]

/-- The arguments, each with its explanation below it. -/
def longHelpArguments : List String := [
  "Arguments:",
  "  [CRATE_SPEC]",
  "          Module path: crate[@version][::module] (e.g., \"env_logger\", \"tokio@1.0::sync\")",
  "",
  "  [FILTER]",
  "          Only show items whose name matches (suffix first, then substring)",
  "",
  "Options:",
  "      --file <PATH>",
  "          Read sidebar items from a local file instead of docs.rs",
  "",
  "      --format <FORMAT>",
  "          How to print the index",
  "",
  "          Possible values:",
  "          - sidebar: One section per category, as in a documentation sidebar",
  "          - list:    One line per item with its full path",
  "          - json:    The index as JSON",
  "          - js:      The index as an initSidebarItems script",
  "          ",
  "          [default: sidebar]",
  "",
  "      --no-cache",
  "          Skip cache and download fresh sidebar items",
  "",
  "      --clear-cache",
  "          Clear the entire cache directory",
  "",
  "      --color <WHEN>",
  "          When to use colors in output",
  "          ",
  "          [default: auto]",
  "",
  "  -v, --verbose",
  "          Log progress to stderr (RUST_LOG takes precedence)",
  "",
  "  -h, --help",
  "          Print help (see a summary with '-h')",
  ""]

def helpText (long : Bool) : String :=
  let arguments := if long then longHelpArguments else shortHelpArguments
  "\n".intercalate (helpHead ++ arguments ++ helpExamples) ++ "\n"

end ModuleIndex.CommandLine
