import HeaderKeys.Path
import HeaderKeys.Text.Terminal

/-! What the program says about itself. The usage line shows the name that the program
was started by; all else is fixed. -/

namespace HeaderKeys.CommandLine

def programName : Text := "update-pandora-api-keys".toList

def versionNumber : Text := "0.1.0".toList

def versionText : Text := programName ++ " ".toList ++ versionNumber ++ "\n".toList

/-- The last name of the path the program was started by, if that is proper text. -/
def shownName (program : Path) : Text :=
  match program.fileName? with
  | some name => if Utf8.valid name then Utf8.decode name else programName
  | none => programName

def helpText (program : Path) : Text :=
  ("Regenerate PandoraKeys.java from libpiano crypt_key headers\n" ++
    "\n" ++
    "Usage: ").toList ++ Terminal.plain (shownName program) ++
  (" [OPTIONS] <FILE>...\n" ++
    "\n" ++
    "Arguments:\n" ++
    "  <FILE>...  C header files to extract keys from\n" ++
    "\n" ++
    "Options:\n" ++
    "  -o, --output <OUTPUT>  Path of the generated Java file [default:\n" ++
    "                         src/com/aregner/pandora/PandoraKeys.java]\n" ++
    "  -v, --verbose...       Verbosity level (-v, -vv, -vvv)\n" ++
    "      --dry-run          Print the generated file to stdout instead of writing it\n" ++
    "  -h, --help             Print help\n" ++
    "  -V, --version          Print version\n").toList

end HeaderKeys.CommandLine
