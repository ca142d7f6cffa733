/-
# The command line

The outer layer of the command: the host that works on the files of the system.  What is read,
decided and written, and in which order, is up to `IntC.Command.run`.
-/
import IntC.Command.Run

namespace IntC.Command

/-- The fault with a system's error code, which may come with a sign, and its words. -/
def faultOfCode (code : UInt32) (details : String) : Fault :=
  let code := if code < 0x80000000 then code else 0 - code
  if code = 21 then .isDirectory
  else if code = 20 then .notDirectory
  else .other (details ++ " (os error " ++ toString code ++ ")")

/-- The fault that the system reports. -/
def faultOf : IO.Error → Fault
  | .noFileOrDirectory .. => .notFound
  | .inappropriateType _ code details | .permissionDenied _ code details
  | .resourceExhausted _ code details | .invalidArgument _ code details =>
    faultOfCode code details
  | error => .other (toString error)

/-- The outcome of a step of the system. -/
def attempt {α : Type} (step : IO α) : IO (Except Fault α) := do
  try return .ok (← step)
  catch error => return .error (faultOf error)

/-- The system as a host. -/
def Host.ofSystem : Host IO where
  read path := do
    match ← attempt (IO.FS.readBinFile path) with
    | .ok bytes => return (String.fromUTF8? bytes).elim (.error .notText) .ok
    | .error fault => return .error fault
  write path text := attempt (IO.FS.writeFile path text)
  print text := attempt (IO.print text)
  report text := IO.eprint text

end IntC.Command

open IntC.Command in
/-- Reads the command line and runs the command on the system. -/
def main (line : List String) : IO UInt32 := do
  return (← runLine .ofSystem line).toUInt32
