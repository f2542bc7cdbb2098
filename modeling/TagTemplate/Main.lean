import TagTemplate.CommandLine.Run

/-!
# `TagTemplate.Main`: the command line program

Carries out the command that the arguments give, on the files and streams of the
operating system.
-/

set_option autoImplicit false

namespace TagTemplate.CommandLine

/-- Does something with a file, or gives the reason why that fails. -/
def attempt {α : Type} (action : IO α) : IO (Except String α) := do
  try
    return .ok (← action)
  catch fault =>
    return .error (toString fault)

/-- The host that the program runs on, since a time in nanoseconds. -/
def Host.ofProcess (started : Nat) : Host IO where
  read path := attempt (IO.FS.readFile path)
  write path text := attempt (IO.FS.writeFile path text)
  print text := do (← IO.getStdout).putStr text
  report line := do (← IO.getStderr).putStrLn line
  elapsed := do return toString ((← IO.monoNanosNow) - started) ++ "ns"

end TagTemplate.CommandLine

/-- Runs the command that the arguments give. -/
def main (args : List String) : IO UInt32 := do
  match TagTemplate.CommandLine.Command.ofArguments? args with
  | .ok command =>
    let exit ← command.perform (.ofProcess (← IO.monoNanosNow)) .plain
    return exit.toUInt32
  | .error .usage =>
    (← IO.getStderr).putStrLn "error: invalid arguments"
    return 2
  | .error _ => return 0
