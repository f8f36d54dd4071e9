import CredentialWrites.Log.Record
import CredentialWrites.Payload.Field
import CredentialWrites.Settings.EnvFile
import CredentialWrites.Text.Case

/-!
# Settings

The settings of the library, each from the first source that has it: what the caller gives, the
environment, and a file of assignments. Names of variables have a common start and are told apart
without regard to letter case. A line of the file that cannot be read leaves a warning in the log.
The settings that most callers use are loaded once and kept.

* `Settings.load` : settings from all sources.
* `SettingsCache.get` : the settings kept, loaded if there are none.
-/

namespace CredentialWrites

/-- The settings of the library. -/
structure Settings where
  logLevel : String
  logFormat : String
  includeCaller : Bool
  serviceName : String
  redactValues : Bool
  /-- The indentation of documents on the wire, if they are to have one. -/
  jsonIndent : Option Field.Numeral
deriving Repr, DecidableEq

/-- Where settings come from beside the caller. -/
structure Surroundings where
  /-- The variables of the environment in their order. -/
  env : List (String × String)
  /-- The text of the file of assignments, if there is one. -/
  file : Option String
deriving Repr, DecidableEq

namespace Surroundings

/-- The variables without some of them. -/
def unset (s : Surroundings) (names : List String) : Surroundings :=
  { s with env := s.env.filter fun v => !names.contains v.1 }

/-- The variables with a value put in place of the one of a variable. -/
def put (name value : String) : List (String × String) → List (String × String)
  | [] => [(name, value)]
  | v :: vs => if v.1 = name then (name, value) :: vs else v :: put name value vs

/-- The surroundings with some variables set. -/
def set (s : Surroundings) (values : List (String × String)) : Surroundings :=
  { s with env := values.foldl (fun vs v => put v.1 v.2 vs) s.env }

/-- The value of the last variable that has a name, letter case apart. -/
def last? {α : Type} (name : String) (entries : List (String × α)) : Option α :=
  (entries.reverse.find? fun v => Text.lower v.1 = name).map Prod.snd

/-- The text of a variable: that of the environment, or else that of the file. -/
def text? (s : Surroundings) (name : String) : Option String :=
  (last? name s.env).or
    ((last? name ((s.file.map EnvFile.read).getD [])).bind id)

/-- The log record of a line of the file that cannot be read. -/
def warning (line : Nat) : LogRecord :=
  ⟨"dotenv.main", LogLevel.warning.rank,
    .text "python-dotenv could not parse statement starting at line %s", [.int line],
    ⟨"main.py", 0, some "with_warn_for_invalid_lines"⟩, [], .nothing⟩

/-- The log records that a look at the file leaves. -/
def warnings (s : Surroundings) : List LogRecord :=
  ((s.file.map EnvFile.unreadableLines).getD []).map warning

end Surroundings

namespace Settings

/-- What the names of all variables start with. -/
def variableStart : String := "credhub_"

/-- The value of a setting: what the caller gives, or else what a variable holds. -/
def given? (given : List (String × Value)) (s : Surroundings) (name : String) : Option Value :=
  (given.lookup name).or ((s.text? (variableStart ++ name)).map .text)

/-- One setting, or its default. -/
def setting {α : Type} (given : List (String × Value)) (s : Surroundings) (name : String)
    (read : Value → Except FieldFault α) (default : α) : Except (List FieldError) α :=
  match given? given s name with
  | some v => Field.along [.field name] (read v)
  | none => .ok default

/-- The settings from all sources. -/
def load (given : List (String × Value)) (s : Surroundings) : Except (List FieldError) Settings :=
  (fun p => ⟨p.1, p.2.1, p.2.2.1, p.2.2.2.1, p.2.2.2.2.1, p.2.2.2.2.2⟩) <$>
    Field.both (setting given s "log_level" Field.text "INFO")
      (Field.both (setting given s "log_format" Field.text "json")
        (Field.both (setting given s "log_include_caller" Field.bool true)
          (Field.both (setting given s "service_name" Field.text "credhub-client")
            (Field.both (setting given s "redact_credential_values" Field.bool true)
              (setting given s "json_indent" (Field.optional Field.int) none)))))

end Settings

/-- The settings that are kept, if they have been loaded. -/
abbrev SettingsCache := Option Settings

namespace SettingsCache

/-- The settings that are kept, and what is kept from then on. If there are none they are loaded; a
failure to load them keeps nothing. -/
def get (cache : SettingsCache) (s : Surroundings) : Except Fault Settings × SettingsCache :=
  match cache with
  | some settings => (.ok settings, some settings)
  | none => match Settings.load [] s with
    | .ok settings => (.ok settings, some settings)
    | .error errors => (.error (.validation errors), none)

end SettingsCache

end CredentialWrites
