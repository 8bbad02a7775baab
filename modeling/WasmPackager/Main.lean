/-
# `Main` — the packager on a host of its own

The program takes its arguments, runs on a host with nothing on it but the
system, prints what the run printed, and ends with its status.
-/
import WasmPackager.CommandLine
import WasmPackager.Shell.System

/-- Runs the packager and hands its output and its status to the system. -/
def WasmPackager.CommandLine.serve (args : List String) : IO UInt32 := do
  let argv := ascii "screeps-build" :: args.map (·.toUTF8.toList)
  let outcome := run (Launch.run Shell.behaviour) argv Host.system
  (← IO.getStdout).write outcome.out.toByteArray
  (← IO.getStderr).write outcome.err.toByteArray
  return UInt32.ofNat outcome.status

def main (args : List String) : IO UInt32 := WasmPackager.CommandLine.serve args
