/-
# `Shell` — the programs of the system

Everything below this directory stands for programs that are not the packager:
the shells and tools that a host has, the processes they run as
(`Shell.Machine`), the texts they read and write (`Shell.Text`) and the
programs themselves (`Shell.Tools`).  They are there so that the packager can be
run as a whole: a project's build command may be a script, and what it leaves on
the host decides how the packager goes on.

The packager knows of them only through `Behaviour`, a parameter of `Launch.run`,
and `Shell.behaviour` is one instance.  Nothing outside this directory but the
program in `Main` imports it, and no theorem is about it: what is proved of the
packager holds for every runner, and so whatever these programs do.
-/
import WasmPackager.Shell.Machine.Basic
import WasmPackager.Shell.Machine.Signal
import WasmPackager.Shell.Machine.Streams
import WasmPackager.Shell.Text.Decimal
import WasmPackager.Shell.Text.Directive
import WasmPackager.Shell.Text.Duration
import WasmPackager.Shell.Text.Escape
import WasmPackager.Shell.Text.Permissions
import WasmPackager.Shell.Text.Printf
import WasmPackager.Shell.Text.Quote
import WasmPackager.Shell.Text.Regex
import WasmPackager.Shell.Tools.Basic
import WasmPackager.Shell.Tools.Columns
import WasmPackager.Shell.Tools.Copying
import WasmPackager.Shell.Tools.Editing
import WasmPackager.Shell.Tools.Editing.Cycle
import WasmPackager.Shell.Tools.Editing.Instruction
import WasmPackager.Shell.Tools.Finding
import WasmPackager.Shell.Tools.Listing
import WasmPackager.Shell.Tools.Making
import WasmPackager.Shell.Tools.Order
import WasmPackager.Shell.Tools.Paths
import WasmPackager.Shell.Tools.Reading
import WasmPackager.Shell.Tools.Running
import WasmPackager.Shell.Tools.Searching
import WasmPackager.Shell.Tools.Table
import WasmPackager.Shell.Tools.Values
import WasmPackager.Shell.Arithmetic
import WasmPackager.Shell.Builtins.Basic
import WasmPackager.Shell.Builtins.Commands
import WasmPackager.Shell.Builtins.Condition
import WasmPackager.Shell.Builtins.Control
import WasmPackager.Shell.Builtins.Location
import WasmPackager.Shell.Builtins.Parameters
import WasmPackager.Shell.Builtins.Printing
import WasmPackager.Shell.Builtins.Signals
import WasmPackager.Shell.Builtins.Table
import WasmPackager.Shell.Child
import WasmPackager.Shell.Evaluate
import WasmPackager.Shell.Expansion
import WasmPackager.Shell.Fields
import WasmPackager.Shell.Filenames
import WasmPackager.Shell.Glyph
import WasmPackager.Shell.Grammar
import WasmPackager.Shell.Invocation
import WasmPackager.Shell.Jobs
import WasmPackager.Shell.Lexer
import WasmPackager.Shell.Pattern
import WasmPackager.Shell.Reader
import WasmPackager.Shell.Redirect
import WasmPackager.Shell.Script
import WasmPackager.Shell.Search
import WasmPackager.Shell.Source
import WasmPackager.Shell.State
import WasmPackager.Shell.System
import WasmPackager.Shell.Trial
