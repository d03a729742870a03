import Agenda.CommandLine

/-!
The program: prints the dashboard of a user as indented JSON, or says on the error stream why it
cannot.
-/

namespace Agenda

namespace Program

/-- The seconds since 1970, by the time of the last start and the time since then. -/
def secondsNow : IO Nat := do
  let uptime ← IO.FS.readFile "/proc/uptime"
  let statistics ← IO.FS.readFile "/proc/stat"
  let since := Text.digitsValue (uptime.toList.takeWhile Text.isDigit)
  let start := ((statistics.splitOn "\nbtime ").getD 1 "").toList.takeWhile Text.isDigit
  return Text.digitsValue start + since

def now : IO (Option Instant) := do
  let seconds ← secondsNow
  return (Instant.ofText? "1970-01-01T00:00:00Z").bind fun start =>
    start.add? (.ofSeconds seconds)

def environment : IO (List (String × String)) := do
  let mut found := []
  for setting in Setting.all do
    match ← IO.getEnv setting.variableName with
    | some value => found := (setting.variableName, value) :: found
    | none => pure ()
  return found

def attempt {α : Type} (action : IO α) : IO (Option α) := do
  match ← action.toBaseIO with
  | .ok value => return some value
  | .error _ => return none

def readFixture (plan : CommandLine.Plan) : IO (Except CommandLine.CommandFault String) := do
  match ← attempt (IO.FS.Handle.mk (plan.directory ++ "/.") .read) with
  | none => return .error (.openDirectory plan.directory)
  | some _ =>
      match ← attempt (IO.FS.readFile (plan.directory ++ "/" ++ plan.file)) with
      | none => return .error (.readFixture plan.request.path)
      | some text => return .ok text

def run (arguments : List String) : IO (Except CommandLine.CommandFault TodoList) := do
  let known ← environment
  match CommandLine.plan (fun name => known.lookup name) arguments with
  | .error fault => return .error fault
  | .ok plan =>
      match ← readFixture plan, ← now with
      | .error fault, _ => return .error fault
      | .ok _, none => return .error .timeOverflow
      | .ok text, some now => return CommandLine.finish plan text now

end Program

end Agenda

def main (arguments : List String) : IO UInt32 := do
  match ← Agenda.Program.run arguments with
  | .ok list =>
      IO.println list.snapshot.indentedText
      return 0
  | .error fault =>
      IO.eprintln ("Error: " ++ fault.message)
      return fault.exitCode.toUInt32
