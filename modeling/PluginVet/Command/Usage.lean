/-
# PluginVet.Command.Usage — what is said about a command line that is not carried out

Help and the version are answers of their own; all else is an error.
-/
import PluginVet.Command.Line

namespace PluginVet.Command

def versionText : String := "manifest-lint 0.1.0\n"

def helpText : String :=
  "Validate plugin manifests against a shared entity registry.\n\n"
    ++ "Usage: manifest-lint [validate] [OPTIONS] [PLUGIN]...\n"
    ++ "       manifest-lint patterns [OPTIONS] [PLUGIN]...\n"
    ++ "       manifest-lint registry [OPTIONS]\n"
    ++ "       manifest-lint init [OPTIONS]\n\n"
    ++ "  -c, --config FILE    configuration file\n"
    ++ "  -r, --root DIR       repository root\n"
    ++ "      --format FORMAT  text or json\n"
    ++ "      --all            every plugin\n"
    ++ "  -f, --filter TEXT    only plugins whose name or path contains this text\n"
    ++ "      --no-move        leave failing plugins in place\n"
    ++ "      --pre-commit     only the checks of the descriptor, and leave plugins in place\n"
    ++ "      --no-coverage    no test coverage and icon checks\n"
    ++ "      --no-refs        no return type and mapping key checks\n"
    ++ "      --strict         (patterns) exit with 2 on warnings\n"
    ++ "  -v, --verbose        (validate) print the registry, (patterns) print references\n"
    ++ "  -o, --output FILE    (init) file to write\n"
    ++ "      --force          (init) overwrite the file\n"

namespace UsageProblem

def message : UsageProblem → String
  | .unknownArgument => "error: unexpected argument\n"
  | .conflict => "error: an argument cannot be used together with another one, or twice\n"
  | .invalidValue => "error: invalid or missing value for an option\n"
  | .needlessValue => "error: unexpected value for a flag\n"
  | .unknownCommand => "error: unrecognized subcommand\n"
  | .help => helpText
  | .version => versionText

/-- Help and the version were asked for; nothing went wrong. -/
def isAnswer (p : UsageProblem) : Bool := p = .help || p = .version

end UsageProblem

end PluginVet.Command
