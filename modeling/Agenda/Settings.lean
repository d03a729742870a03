import Agenda.CommandLine.Options
import Agenda.Dashboard.Build
import Agenda.Settings.Variable

/-!
Settings: from variables of the environment, and from arguments, which win over them.
-/

namespace Agenda

structure Settings where
  gradingDisabled : Bool := false
  cacheSeconds : Option Nat := none
  fetchLimit : Option Nat := none
  visibleLimit : Option Nat := none
  defaultLimit : Option Nat := none
  redisUrl : Option String := none
deriving DecidableEq, Repr

namespace Settings

def format : RecordFormat Settings Settings :=
  Settings.mk
    <$> .field "disable_grading_queries" gradingDisabled .required
    <*> .field "cache_ttl_seconds" cacheSeconds .optional
    <*> .field "fetch_limit" fetchLimit .optional
    <*> .field "visible_limit" visibleLimit .optional
    <*> .field "default_limit" defaultLimit .optional
    <*> .field "redis_url" redisUrl .optional

instance : JsonFormat Settings := format.jsonFormat

def config (settings : Settings) : Config :=
  let standard : Config := {}
  { gradingDisabled := settings.gradingDisabled
    cacheSeconds := settings.cacheSeconds.getD standard.cacheSeconds }

def dashboardLimits (settings : Settings) : DashboardLimits :=
  let standard : DashboardLimits := {}
  { fetch := settings.fetchLimit.getD standard.fetch
    visible := settings.visibleLimit.getD standard.visible }

def defaultOptions (settings : Settings) : NeedsOptions :=
  { limit := some (settings.defaultLimit.getD 15) }

end Settings

inductive Setting where
  | gradingDisabled
  | cacheSeconds
  | fetchLimit
  | visibleLimit
  | defaultLimit
  | redisUrl
deriving DecidableEq, Repr

inductive SettingsFault where
  | argument (fault : ArgumentFault)
  | value (setting : Setting)
deriving DecidableEq, Repr

namespace Setting

def variableName : Setting → String
  | .gradingDisabled => "TODO_DISABLE_GRADING_QUERIES"
  | .cacheSeconds => "TODO_CACHE_TTL_SECONDS"
  | .fetchLimit => "TODO_FETCH_LIMIT"
  | .visibleLimit => "TODO_VISIBLE_LIMIT"
  | .defaultLimit => "TODO_DEFAULT_LIMIT"
  | .redisUrl => "TODO_REDIS_URL"

def optionForm : Setting → OptionForm Setting
  | .gradingDisabled => ⟨.gradingDisabled, "disable-grading-queries", some 'd', false⟩
  | .cacheSeconds => ⟨.cacheSeconds, "cache-ttl-seconds", some 'c', true⟩
  | .fetchLimit => ⟨.fetchLimit, "fetch-limit", some 'f', true⟩
  | .visibleLimit => ⟨.visibleLimit, "visible-limit", some 'v', true⟩
  | .defaultLimit => ⟨.defaultLimit, "default-limit", some 'D', true⟩
  | .redisUrl => ⟨.redisUrl, "redis-url", some 'r', true⟩

def all : List Setting :=
  [.gradingDisabled, .cacheSeconds, .fetchLimit, .visibleLimit, .defaultLimit, .redisUrl]

def ofArgument (setting : Setting) (text : String) : Except SettingsFault SettingValue :=
  match setting with
  | .gradingDisabled => .ok (.truth true)
  | .redisUrl => .ok (.text text)
  | setting =>
      match Text.readWord? text.toList with
      | some value => .ok (.number value)
      | none => .error (.value setting)

def typed {α : Type} (setting : Setting) (read : SettingValue → Option α) (value : SettingValue) :
    Except SettingsFault α :=
  match read value with
  | some result => .ok result
  | none => .error (.value setting)

def optional {α : Type} (setting : Setting) (read : SettingValue → Option α) :
    Option SettingValue → Except SettingsFault (Option α)
  | none => .ok none
  | some .unset => .ok none
  | some value => (setting.typed read value).map some

end Setting

namespace Settings

def ofArguments : List (Setting × String) →
    Except SettingsFault (List (Setting × SettingValue))
  | [] => .ok []
  | (setting, text) :: rest => do
      let value ← setting.ofArgument text
      let others ← ofArguments rest
      .ok ((setting, value) :: others)

/-- The settings of an environment and a list of arguments. An option wins over the variable of its
setting. Arguments with any option also settle whether grading lists are off: then its variable
does not count. -/
def load (lookUp : String → Option String) (arguments : List String) :
    Except SettingsFault Settings := do
  let options ← (readOptions (Setting.all.map Setting.optionForm) arguments).mapError .argument
  let given ← ofArguments options
  let inVariable (setting : Setting) : Option SettingValue :=
    (lookUp setting.variableName).map SettingValue.ofVariable
  let valueOf (setting : Setting) : Option SettingValue :=
    (given.lookup setting).or (inVariable setting)
  let switch :=
    if given.isEmpty then inVariable .gradingDisabled else given.lookup .gradingDisabled
  let gradingDisabled ← Setting.typed .gradingDisabled SettingValue.truth?
    (switch.getD (.truth false))
  let cacheSeconds ← Setting.optional .cacheSeconds SettingValue.count? (valueOf .cacheSeconds)
  let fetchLimit ← Setting.optional .fetchLimit SettingValue.count? (valueOf .fetchLimit)
  let visibleLimit ← Setting.optional .visibleLimit SettingValue.count? (valueOf .visibleLimit)
  let defaultLimit ← Setting.optional .defaultLimit SettingValue.count? (valueOf .defaultLimit)
  let redisUrl ← Setting.optional .redisUrl SettingValue.text? (valueOf .redisUrl)
  .ok {
    gradingDisabled := gradingDisabled
    cacheSeconds := cacheSeconds
    fetchLimit := fetchLimit
    visibleLimit := visibleLimit
    defaultLimit := defaultLimit
    redisUrl := redisUrl }

end Settings

end Agenda
