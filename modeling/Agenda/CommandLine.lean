import Agenda.Fixture
import Agenda.Settings
import Agenda.World

/-!
The command that prints one user's dashboard, computed from a fixture file.
-/

namespace Agenda

namespace CommandLine

inductive CommandFault where
  | arguments
  | settings (fault : SettingsFault)
  | noFileName (path : String)
  | openDirectory (directory : String)
  | readFixture (path : String)
  | parseFixture (path : String)
  | redis
  | failed (error : Error)
  | timeOverflow

namespace CommandFault

def message : CommandFault → String
  | .arguments => "arguments"
  | .settings _ => "load settings"
  | .noFileName path => "fixture path must name a file: " ++ path
  | .openDirectory directory => "open fixture directory '" ++ directory ++ "'"
  | .readFixture path => "read fixture '" ++ path ++ "'"
  | .parseFixture path => "parse fixture '" ++ path ++ "'"
  | .redis => "connect to redis"
  | .failed error => error.message
  | .timeOverflow => "an instant is beyond the last one"

def exitCode : CommandFault → Nat
  | .timeOverflow => 101
  | _ => 1

end CommandFault

inductive CommandOption where
  | fixture
  | user
deriving DecidableEq, Repr

structure Request where
  path : String
  user : UserId

def optionForms : List (OptionForm CommandOption) :=
  [{ key := .fixture, long := "fixture" }, { key := .user, long := "user" }]

/-- Both options are needed, the path must not be empty, and the user is an id. -/
def readRequest? (arguments : List String) : Option Request := do
  let options ← (readOptions optionForms arguments).toOption
  let path ← options.lookup .fixture
  let userText ← options.lookup .user
  let value ← Text.readInteger? userText.toList
  let id ← GlobalId.of? value
  if path.isEmpty then none else some ⟨path, ⟨id⟩⟩

def trimReversed : List Char → List Char
  | '/' :: c :: rest => trimReversed (c :: rest)
  | '.' :: '/' :: rest => trimReversed ('/' :: rest)
  | text => text

def locate (path : String) : Except CommandFault (String × String) :=
  let reversed := trimReversed path.toList.reverse
  let name := (reversed.takeWhile (· ≠ '/')).reverse
  let directory := (trimReversed (reversed.dropWhile (· ≠ '/'))).reverse
  if name = [] ∨ name = ['.'] ∨ name = ['.', '.'] then .error (.noFileName path)
  else .ok (if directory.isEmpty then "." else String.ofList directory, String.ofList name)

structure Plan where
  request : Request
  settings : Settings
  directory : String
  file : String

def plan (lookUp : String → Option String) (arguments : List String) :
    Except CommandFault Plan := do
  match readRequest? arguments with
  | none => .error .arguments
  | some request =>
      let settings ← (Settings.load lookUp []).mapError .settings
      let (directory, file) ← locate request.path
      .ok ⟨request, settings, directory, file⟩

def finish (plan : Plan) (fixtureText : String) (now : Instant) : Except CommandFault TodoList :=
  match Fixture.ofText fixtureText with
  | .error _ => .error (.parseFixture plan.request.path)
  | .ok fixture =>
      if plan.settings.redisUrl.isSome then .error .redis
      else
        let world := World.start fixture.tables fixture.grants now plan.settings.config
        let build := TodoList.build world.deployment plan.settings.dashboardLimits
          plan.request.user
        match (build world.memory).1 with
        | .ok list => .ok list
        | .error (.failed error) => .error (.failed error)
        | .error .timeOverflow => .error .timeOverflow

end CommandLine

end Agenda
