import IncludeGuard.Disk
import IncludeGuard.Run

/-! # The command line program

Takes the workspace from disk, runs the program on it, writes back what changed and prints. The
environment variable `RUST_LOG` names the threshold for what is logged. -/

open IncludeGuard

/-- Runs the program with the given arguments and returns its exit code. -/
def main (args : List String) : IO UInt32 := do
  let arguments := args.map fun a => Utf8.encode a.toList
  let ws ← match Options.parse arguments with
    | .ok o => Disk.take o
    | .error _ => pure ⟨.empty, []⟩
  let named := (← IO.getEnv "RUST_LOG").bind fun name => Threshold.ofName? name.toList
  let (ws', out) := ws.program (named.getD .standard) arguments
  Disk.keep ws.tree ws'.tree
  IO.print (String.ofList out.stdout)
  IO.eprint (String.ofList out.stderr)
  if out.exitCode = 2 then IO.eprintln ""
  return out.exitCode.toUInt32
