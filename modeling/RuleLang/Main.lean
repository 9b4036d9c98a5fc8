import RuleLang.Command.Outcome

/-!
# The program

Reads the standard input if it is asked for, prints the outcome, and ends with the outcome's code.
-/

namespace RuleLang

/-- The bytes of a stream up to its end, after those already read. -/
partial def readAll (stream : IO.FS.Stream) (bytes : ByteArray) : IO ByteArray := do
  let more ← stream.read 65536
  if more.isEmpty then return bytes else readAll stream (bytes ++ more)

/-- The input of an invocation, empty if it is not asked for or comes from a terminal. -/
def inputOf (invocation : Invocation) : IO ByteArray := do
  let stdin ← IO.getStdin
  if invocation.request.readsInput && !(← stdin.isTty) then readAll stdin .empty
  else return .empty

end RuleLang

def main (arguments : List String) : IO UInt32 := do
  let invocation := RuleLang.Invocation.ofArguments? 0 arguments
  let input ← invocation.elim (pure .empty) RuleLang.inputOf
  let outcome := RuleLang.outcome arguments input
  IO.print outcome.stdout
  IO.eprint (outcome.stderr RuleLang.Logger.plain)
  return outcome.code.toUInt32
