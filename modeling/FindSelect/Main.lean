import FindSelect.Command.Invocation

/-- Reads the call from the standard input if it is not among the arguments, and
    prints its outcome. -/
def main (arguments : List String) : IO UInt32 := do
  let needsInput := match FindSelect.Invocation.ofArguments arguments with
    | .ok invocation => invocation.needsInput
    | .error _ => false
  let input ← if needsInput then (← IO.getStdin).readBinToEnd else pure ByteArray.empty
  let outcome := FindSelect.runProgram arguments input
  IO.eprint outcome.stderr
  IO.print outcome.stdout
  return outcome.exit
