/-
# `Shell.Tools.Table` — the system's programs by name
-/
import WasmPackager.Shell.Tools.Values
import WasmPackager.Shell.Tools.Running
import WasmPackager.Shell.Tools.Making
import WasmPackager.Shell.Tools.Copying
import WasmPackager.Shell.Tools.Paths
import WasmPackager.Shell.Tools.Listing
import WasmPackager.Shell.Tools.Finding
import WasmPackager.Shell.Tools.Reading
import WasmPackager.Shell.Tools.Order
import WasmPackager.Shell.Tools.Columns
import WasmPackager.Shell.Tools.Searching
import WasmPackager.Shell.Tools.Editing

namespace WasmPackager.Tools

/-- The programs that work on values and on other programs. -/
def workers : List (String × Tool) :=
  [("[", test), ("date", date), ("echo", echo), ("env", env), ("expr", expr),
   ("false", failing), ("id", identity), ("kill", kill), ("nice", nice), ("nohup", nohup),
   ("printenv", printVariables), ("printf", printf), ("seq", seq), ("sleep", sleep),
   ("test", test), ("timeout", timeout), ("true", succeed), ("uname", systemName),
   ("which", which), ("whoami", whoami), ("xargs", xargs), ("yes", yes)]

def keepers : List (String × Tool) :=
  [("basename", basename), ("chmod", chmod), ("cp", cp), ("dd", dd), ("dirname", dirname),
   ("du", du), ("find", Find.find), ("install", install), ("link", link), ("ln", ln), ("ls", ls),
   ("mkdir", mkdir), ("mkfifo", mkfifo), ("mktemp", mktemp), ("mv", mv), ("pwd", pwd),
   ("readlink", readlink), ("realpath", realpath), ("rm", rm), ("rmdir", rmdir),
   ("stat", stat), ("touch", touch), ("truncate", truncate), ("unlink", unlink)]

def readers : List (String × Tool) :=
  [("base64", base64), ("cat", cat), ("cmp", cmp), ("comm", comm), ("cut", cut),
   ("egrep", Grep.egrep), ("expand", expand), ("fgrep", Grep.fgrep), ("fold", fold),
   ("grep", Grep.grep), ("head", head), ("join", join), ("nl", nl), ("od", od),
   ("paste", paste), ("rev", rev), ("sed", Edit.sed), ("sort", sort), ("tac", tac),
   ("tail", tail), ("tee", tee), ("tr", tr), ("uniq", uniq), ("wc", wc)]

/-- What a program of the given name does. -/
def byName : List (Bytes × Tool) :=
  (workers ++ keepers ++ readers).map fun (name, tool) => (ascii name, tool)

end WasmPackager.Tools
