import GraphScript.CommandLine

/-!
# Main — the program itself

- Reads files from disk and the filter from the environment, and prints what
  `CommandLine.run` reports.
-/

namespace GraphScript

/-- The number by which the system says that a directory cannot be read. -/
def directoryCode : UInt32 := 21

def diskStore : Store IO where
  read path := do
    try pure (.ok (← IO.FS.readBinFile path))
    catch
      | .noFileOrDirectory .. => pure (.error .notFound)
      | .inappropriateType _ code _ =>
        pure (.error (if code = directoryCode then .isDirectory else .notDirectory))
      | e => pure (.error (.other (toString e)))

/-- A mark of 32 hexadecimal digits for each number, after a seed. -/
def marks (seed n : Nat) : String :=
  let (a, _) := stdNext (mkStdGen (seed + n))
  let digits := Nat.toDigits 16 ((seed * Nat.pow 2 64 + a * Nat.pow 2 32 + n) % Nat.pow 2 128)
  String.ofList (List.replicate (32 - digits.length) '0' ++ digits)

end GraphScript

open GraphScript in
def main (args : List String) : IO UInt32 := do
  let seed ← IO.rand 0 (Nat.pow 2 62)
  let filter ← IO.getEnv "RUST_LOG"
  let report ← CommandLine.run diskStore { mark := marks seed } filter args
  IO.eprint report.complaint
  for line in report.lines do
    IO.println (line.level.name ++ " " ++ line.message)
  return report.exitCode.toUInt32
