import CredentialWrites.Proofs.Script.Configure
import CredentialWrites.Proofs.Text.LetterCase

/-!
# Names of levels and formats

Settings name the level and the format of the log by texts. The name of a format is looked up by its
lower-case form, that of a level by its upper-case form, and what is not found stands for the
default. A name is therefore found in any case of its letters. Formats have no other spellings than
that, look-alikes from other scripts included. Levels have some: a dotless i has the upper-case form
of an i, so that `warnıng` is a name of the level `WARNING`.

* `LogLevel.Spells`, `LogFormat.Spells` : the spellings of a level and of a format.
* `LoggingConfig.ofSettings_names` : the level and the format that settings ask for.
-/

namespace CredentialWrites

variable {s : String} {l : LogLevel} {f : LogFormat}

/-- The text with a dot on every dotless i. -/
def Text.dotted (s : String) : String :=
  String.ofList (s.toList.map withDot)

theorem Text.dotted_eq_self (h : 'ı' ∉ s.toList) : dotted s = s := by
  have hmap : s.toList.map withDot = s.toList.map id :=
    List.map_congr_left fun c hc => withDot_of_ne fun hdotless => h (hdotless ▸ hc)
  rw [dotted, hmap, List.map_id, String.ofList_toList]

namespace LogLevel

/-- The text is the token of a level, the case of its letters apart. -/
def Spells (s : String) (l : LogLevel) : Prop :=
  Text.SameLetters s.toList l.token.toList

instance (s : String) (l : LogLevel) : Decidable (Spells s l) :=
  inferInstanceAs (Decidable (Text.SameLetters _ _))

theorem mem_all (l : LogLevel) : l ∈ all := by
  cases l <;> decide

theorem isUpperWord_token (l : LogLevel) : Text.IsUpperWord l.token := by
  cases l <;> decide +kernel

theorem ofToken?_upper_eq_some_iff :
    ofToken? (Text.upper s) = some l ↔ Spells (Text.dotted s) l := by
  rw [ofToken?, Text.find?_upper_eq_some_iff (by decide) fun l _ => isUpperWord_token l,
    and_iff_right (mem_all l), Spells, Text.dotted, String.toList_ofList]

/-- A text that spells a level has no dotless i. -/
theorem Spells.dotted_eq_self (h : Spells s l) : Text.dotted s = s := by
  refine Text.dotted_eq_self fun hdotless => ?_
  have hascii := Text.SameLetters.ascii h
    (fun d hd => ((isUpperWord_token l).basic d hd).1.1) 'ı' hdotless
  exact absurd hascii (by decide)

end LogLevel

namespace LogFormat

/-- The text is the token of a format, the case of its letters apart. -/
def Spells (s : String) (f : LogFormat) : Prop :=
  Text.SameLetters s.toList f.token.toList

instance (s : String) (f : LogFormat) : Decidable (Spells s f) :=
  inferInstanceAs (Decidable (Text.SameLetters _ _))

theorem mem_all (f : LogFormat) : f ∈ all := by
  cases f <;> decide

theorem isLowerWord_token (f : LogFormat) : Text.IsLowerWord f.token := by
  cases f <;> decide

theorem ofToken?_lower_eq_some_iff : ofToken? (Text.lower s) = some f ↔ Spells s f := by
  rw [ofToken?, Text.find?_lower_eq_some_iff (by decide) fun f _ => isLowerWord_token f,
    and_iff_right (mem_all f), Spells]

end LogFormat

namespace LoggingConfig

/-- A level other than the default is the one of the names that spell it with dots on their i's. -/
theorem levelOf_eq_iff (hl : l ≠ .info) : levelOf s = l ↔ LogLevel.Spells (Text.dotted s) l := by
  rw [← LogLevel.ofToken?_upper_eq_some_iff, levelOf]
  cases LogLevel.ofToken? (Text.upper s) with
  | none => simpa using hl.symm
  | some level => simp

theorem levelOf_of_spells (h : LogLevel.Spells s l) : levelOf s = l := by
  have hfound : LogLevel.ofToken? (Text.upper s) = some l := by
    rwa [LogLevel.ofToken?_upper_eq_some_iff, h.dotted_eq_self]
  rw [levelOf, hfound, Option.getD_some]

theorem formatOf_of_spells (h : LogFormat.Spells s f) : formatOf s = f := by
  rw [formatOf, LogFormat.ofToken?_lower_eq_some_iff.2 h, Option.getD_some]

theorem formatOf_of_not_spells (h : ∀ f, ¬ LogFormat.Spells s f) : formatOf s = .json := by
  cases hfound : LogFormat.ofToken? (Text.lower s) with
  | none => rw [formatOf, hfound, Option.getD_none]
  | some f => exact absurd (LogFormat.ofToken?_lower_eq_some_iff.1 hfound) (h f)

/-- **The level and the format that settings ask for.** A name that spells a level or a format
stands for it. What spells no format stands for the default. What spells no level does too, unless
it spells one with dots on its dotless i's, and then it stands for that one. -/
theorem ofSettings_names (x : Settings) (made : Making.State) :
    ∃ c made' level format, (ofSettings x).Gives made c made' ∧
      c.level = .member (.logLevel level) ∧ c.format = .member (.logFormat format) ∧
      (∀ l, LogLevel.Spells x.logLevel l → level = l) ∧
      ((∀ l, ¬ LogLevel.Spells x.logLevel l) →
        ('ı' ∉ x.logLevel.toList → level = .info) ∧
          ∀ l, l ≠ .info → (level = l ↔ LogLevel.Spells (Text.dotted x.logLevel) l)) ∧
      (∀ f, LogFormat.Spells x.logFormat f → format = f) ∧
      ((∀ f, ¬ LogFormat.Spells x.logFormat f) → format = .json) := by
  obtain ⟨c, made', hgives⟩ : ∃ c made', (ofSettings x).Gives made c made' := ⟨_, _, rfl⟩
  refine ⟨c, made', levelOf x.logLevel, formatOf x.logFormat, hgives, ?_⟩
  obtain ⟨cell, rfl⟩ := eq_of_gives_ofSettings hgives
  refine ⟨rfl, rfl, fun l => levelOf_of_spells,
    fun hnone => ⟨fun hdotless => ?_, fun l => levelOf_eq_iff⟩, fun f => formatOf_of_spells,
    formatOf_of_not_spells⟩
  by_contra hinfo
  have hspells := (levelOf_eq_iff hinfo).1 rfl
  rw [Text.dotted_eq_self hdotless] at hspells
  exact hnone _ hspells

/-- Capitals make no difference. A Cyrillic o does, and so the format is the default; a dotless i
does not, and so the level is not. -/
theorem ofSettings_names_of_lookalikes :
    (LogLevel.Spells "Error" .error ∧ LogFormat.Spells "CONSOLE" .console ∧
      ∃ c made', (ofSettings ⟨"Error", "CONSOLE", true, "svc", true, none⟩).Gives .start c made' ∧
        c.level = .member (.logLevel .error) ∧ c.format = .member (.logFormat .console)) ∧
    (∀ l, ¬ LogLevel.Spells "warnıng" l) ∧ (∀ f, ¬ LogFormat.Spells "c\u043ensole" f) ∧
      ∃ c made', (ofSettings ⟨"warnıng", "c\u043ensole", true, "svc", true, none⟩).Gives
        .start c made' ∧
        c.level = .member (.logLevel .warning) ∧ c.format = .member (.logFormat .json) := by
  constructor
  · have hlevel : LogLevel.Spells "Error" .error := by decide
    have hformat : LogFormat.Spells "CONSOLE" .console := by decide
    obtain ⟨c, made', level, format, hgives, hc, hc', hnamed, -, hnamed', -⟩ :=
      ofSettings_names ⟨"Error", "CONSOLE", true, "svc", true, none⟩ .start
    exact ⟨hlevel, hformat, c, made', hgives, hnamed _ hlevel ▸ hc, hnamed' _ hformat ▸ hc'⟩
  · have hlevel (l : LogLevel) : ¬ LogLevel.Spells "warnıng" l := by cases l <;> decide
    have hformat (f : LogFormat) : ¬ LogFormat.Spells "c\u043ensole" f := by cases f <;> decide
    obtain ⟨c, made', level, format, hgives, hc, hc', -, hunnamed, -, hunnamed'⟩ :=
      ofSettings_names ⟨"warnıng", "c\u043ensole", true, "svc", true, none⟩ .start
    have hwarning : level = .warning := ((hunnamed hlevel).2 .warning (by decide)).2 (by decide)
    exact ⟨hlevel, hformat, c, made', hgives, hwarning ▸ hc, hunnamed' hformat ▸ hc'⟩

end LoggingConfig

end CredentialWrites
