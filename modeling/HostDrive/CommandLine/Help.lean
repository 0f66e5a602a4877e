import HostDrive.CommandLine.Arguments

/-!
# Help Texts

What the command line tells about itself.
-/

namespace HostDrive.CommandLine

/-- The lines of a text, each with an end. -/
def unlines (lines : List String) : String := String.join (lines.map fun line => line ++ "\n")

/-- The line about the option for help. -/
def helpOptionLine : String := "  -h, --help  Print help"

def Topic.text : Topic → String
  | program => unlines [
      "Drive the MSX-DOS filesystem integration hooks",
      "",
      "Usage: msxfs [OPTIONS] <COMMAND>",
      "",
      "Commands:",
      "  dir   List entries matching a pattern (default: all)",
      "  vol   Show the volume label",
      "  cd    Change the current directory and print it",
      "  help  Print this message or the help of the given subcommand(s)",
      "",
      "Options:",
      "  -c, --config <CONFIG>  JSON config with integratedDirectory and volumeLabel",
      "  -d, --dir <DIR>        Host directory to expose (overrides the config)",
      "  -l, --label <LABEL>    Volume label (overrides the config)",
      "  -t, --trace            Log every driver call",
      "  -h, --help             Print help"]
  | dir => unlines [
      "List entries matching a pattern (default: all)",
      "",
      "Usage: msxfs dir [PATTERN]",
      "",
      "Arguments:",
      "  [PATTERN]  ",
      "",
      "Options:",
      helpOptionLine]
  | vol => unlines ["Show the volume label", "", "Usage: msxfs vol", "", "Options:", helpOptionLine]
  | cd => unlines [
      "Change the current directory and print it",
      "",
      "Usage: msxfs cd <PATH>",
      "",
      "Arguments:",
      "  <PATH>  ",
      "",
      "Options:",
      helpOptionLine]
  | help => unlines [
      "Print this message or the help of the given subcommand(s)",
      "",
      "Usage: msxfs help [COMMAND]...",
      "",
      "Arguments:",
      "  [COMMAND]...  Print help for the subcommand(s)"]

end HostDrive.CommandLine
