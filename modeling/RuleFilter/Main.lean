import RuleFilter.Trace

open RuleFilter

def main (arguments : List String) : IO UInt32 := do
  let values ← Settings.variableNames.mapM fun name => return (name, ← IO.getEnv name)
  let outcome := Trace.run arguments fun name => (values.lookup name).join
  IO.print outcome.output
  IO.eprint outcome.errors
  return outcome.exit.toUInt32
