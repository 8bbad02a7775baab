/-
# `Shell.Search` — what the name of a command stands for

A name stands for a function, for a command of the shell itself, or for a
program that is looked for in the directories of the search path.  A name with
a slash is the path of a program.
-/
import WasmPackager.Shell.Grammar
import WasmPackager.Shell.State

namespace WasmPackager.Shell

/-- What a name stands for. -/
inductive Meant
  | function (body : Script)
  | builtin
  /-- A program, to be looked for in these directories; a path if there are none. -/
  | program (directories : List Bytes)
  | nothing (reason : Bytes)

namespace Search

/-- The shell's own commands whose mistakes end a script and whose assignments stay. -/
def specialNames : List Bytes := Grammar.reserved

/-- The shell's own commands whose arguments can be assignments. -/
def assigningNames : List Bytes := ["export", "readonly", "local"].map ascii

def regularNames : List Bytes :=
  ["[", "alias", "bg", "cd", "chdir", "command", "echo", "false", "fg", "getopts", "hash",
   "jobs", "kill", "local", "printf", "pwd", "read", "test", "true", "type", "ulimit", "umask",
   "unalias", "wait"].map ascii

/-- The commands that only a shell of the extended language has. -/
def extendedNames : List Bytes :=
  ["source", "let", "declare", "typeset", "shopt", "builtin"].map ascii

def isBuiltin (dialect : Dialect) (name : Bytes) : Bool :=
  specialNames.contains name || regularNames.contains name ||
    (dialect == .extended && extendedNames.contains name)

/-- The name of a command whose mistakes end a script. -/
def isSpecial (dialect : Dialect) (name : Bytes) : Bool :=
  (dialect == .common && specialNames.contains name) || name == ascii "local"

/-- The words of a shell for a program that cannot be found or executed. -/
def reason (cause : SystemError) : Bytes :=
  match cause with
  | .notFound | .notDirectory => ascii "not found"
  | cause => cause.message

/-- The status of a command whose program cannot be executed. -/
def statusFor (cause : SystemError) : UInt8 :=
  match cause with
  | .notFound | .notDirectory | .linkLoop | .nameTooLong => 127
  | _ => 126

/-- The directories from the first one that has a file of the name. -/
def directoriesWith (h : Host) (name : Bytes) (cause : SystemError) : List Bytes →
    Except SystemError (List Bytes)
  | [] => .error cause
  | dir :: rest =>
    match h.stat (Path.join dir name) with
    | .ok i =>
      if i.node.isRegular then .ok (dir :: rest) else directoriesWith h name .accessDenied rest
    | .error .notFound | .error .notDirectory => directoriesWith h name cause rest
    | .error other => directoriesWith h name other rest

/-- What a name stands for if it is not the name of a function or of the shell's own. -/
def programOf (s : State) (directories : List Bytes) (name : Bytes) : Meant :=
  if name.contains Path.slash then .program []
  else
    match directoriesWith s.machine.host name .notFound directories with
    | .ok found => .program found
    | .error cause => .nothing (reason cause)

def meaning (s : State) (functions : Bool) (directories : List Bytes) (name : Bytes) : Meant :=
  match if functions then s.functions.lookup name else none with
  | some body => .function body
  | none =>
    if isBuiltin s.dialect name && !name.contains Path.slash then .builtin
    else programOf s directories name

/-- Executes the first program of the name that can be executed. -/
def executeFirst (h : Host) (name : Bytes) (argv : List Bytes) (cause : SystemError) :
    List Bytes → Except SystemError (Name × List Bytes)
  | [] => .error cause
  | dir :: rest =>
    match Launch.executePath h (Path.join dir name) argv with
    | .ok found => .ok found
    | .error .notFound | .error .notDirectory => executeFirst h name argv cause rest
    | .error other => executeFirst h name argv other rest

/-- The system's program that a command starts, and the arguments it is given. -/
def execute (h : Host) (directories : List Bytes) (name : Bytes) (argv : List Bytes) :
    Except SystemError (Name × List Bytes) :=
  if name.contains Path.slash then Launch.executePath h name argv
  else executeFirst h name argv .notFound directories

/-- The directories that are searched when only the standard programs are wanted. -/
def standardPath : List Bytes := Launch.searchPath

end Search
end WasmPackager.Shell
