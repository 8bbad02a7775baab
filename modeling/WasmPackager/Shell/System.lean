/-
# `Shell.System` — a host with nothing on it but the system

The file system a run begins with: the devices, the system's own programs in
the directories of the search path, and the usual empty directories.  What the
programs do is said here too: a program of the system is a shell or one of the
tools.
-/
import WasmPackager.Shell.Invocation
import WasmPackager.Shell.Tools.Table

namespace WasmPackager

/-! ## The programs at work -/

namespace Shell

def commonName : Name := ascii "dash"

def extendedName : Name := ascii "bash"

/-- How many programs can wait for one another. -/
def programDepth : Nat := 400

/-- What a program of the system does, with a unit of fuel for every program that waits for
another one. -/
def program : (fuel : Nat) → Name → (argv : List Bytes) → Machine → Fate × Machine
  | 0, _, _, m => (.killed Signal.segmentationFault, m)
  | fuel + 1, name, argv, m =>
    if name == commonName then run .common (program fuel) argv m
    else if name == extendedName then run .extended (program fuel) argv m
    else
      match Tools.byName.lookup name with
      | some tool => Act.fate (tool ⟨argv.headD [], argv.drop 1, program fuel⟩) m
      | none => (.exited 127, m)

/-- The variables that a child of the packager knows. -/
def environment : List (Bytes × Bytes) :=
  [(ascii "PATH", Bytes.joinWith [58] Launch.searchPath), (ascii "HOME", ascii "/root")]

/-- The number of the packager's process. -/
def packagerNumber : Nat := 1000

/-- The machine on which a child of the packager begins to work: it reads nothing, and what it
writes is lost. -/
def machine (h : Host) : Machine :=
  let (n, files) := h.files.create (.device .null) 0o666
  let number := packagerNumber + 1
  { files
    opened := #[⟨n, 0, true, true, false⟩]
    acting :=
      { number
        starter := packagerNumber
        cwd := h.cwd
        streams := [(Machine.input, 0), (Machine.output, 0), (Machine.complaints, 0)]
        environment
        umask := 0o022
        ignored := []
        deadlines := []
        orphaned := false }
    lastNumber := number
    alive := [packagerNumber, number]
    posted := [] }

def behaviour : Behaviour := fun name argv h =>
  let (fate, m) := program programDepth name argv (machine h)
  (fate, h.withFiles m.files)

end Shell

/-! ## The files -/

namespace Host

/-- The directories of a new host, each behind the one it lies in. -/
def directories : List Bytes :=
  ["/dev", "/dev/fd", "/etc", "/home", "/opt", "/root", "/tmp", "/usr", "/usr/bin", "/usr/lib",
   "/usr/local", "/usr/local/bin", "/usr/local/sbin", "/usr/sbin", "/usr/share", "/var",
   "/var/tmp"].map ascii

/-- The links of a new host with their targets. -/
def links : List (Bytes × Bytes) :=
  [("/bin", "usr/bin"), ("/lib", "usr/lib"), ("/sbin", "usr/sbin"), ("/usr/bin/sh", "dash")].map
    fun (path, target) => (ascii path, ascii target)

def devices : List (Bytes × Device) :=
  [(ascii "/dev/null", .null), (ascii "/dev/full", .full), (ascii "/dev/zero", .zero),
   (ascii "/dev/random", .zero), (ascii "/dev/urandom", .zero),
   (ascii "/dev/stdin", .stream Machine.input), (ascii "/dev/stdout", .stream Machine.output),
   (ascii "/dev/stderr", .stream Machine.complaints)] ++
  (List.range 10).map fun n => (ascii "/dev/fd/" ++ Bytes.ofNat n, .stream n)

def programs : List Name :=
  Bytes.sort (Shell.commonName :: Shell.extendedName :: Tools.byName.map Prod.fst)

/-- The host after a change, if that could be made. -/
def attempt (h : Host) (change : Host → Except SystemError Host) : Host :=
  (change h).toOption.getD h

/-- A host with nothing on it but the system, seen from the root. -/
def system : Host :=
  let h : Host := ⟨FileSystem.empty, FileSystem.root⟩
  let h := directories.foldl (fun h path =>
    h.attempt (·.makeDirectory path Inode.directoryMode)) h
  let h := links.foldl (fun h (path, target) => h.attempt (·.makeLink path target)) h
  let h := devices.foldl (fun h (path, device) =>
    h.attempt (·.makeNode path (.device device) 0o666)) h
  programs.foldl (fun h name =>
    h.attempt (·.makeNode (Path.join (ascii "/usr/bin") name)
      (.file (.ofBytes (Format.image name))) Inode.programMode)) h

end Host
end WasmPackager
