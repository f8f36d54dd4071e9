import CredentialWrites.Proofs.Permission.Calls
import CredentialWrites.Proofs.Text.LetterCase
import CredentialWrites.Proofs.Text.Trimming

/-!
# Spellings of operations

An operation can be named by its token, with blanks around it and with its letters in any case.
Blanks and letter case are those of every script, and yet the spellings of a token are nothing but
its own letters: no character from outside the basic alphabet has a lower-case form that is a letter
of a token, and none of the blanks is one. Whatever spells no operation is refused, alone or in a
batch, and nothing is granted for it.

A refusal shows what was given. If that has no written form, the attempt to write it is what fails.

* `Operation.Spells` : the spellings of the token of an operation.
* `Operation.IsNamed` : the values that name an operation.
* `PermissionBuilder.operations_named` : which values name an operation, and what becomes of all
  others.
-/

namespace CredentialWrites

namespace Operation

variable {s : String} {op : Operation} {v : Value}

/-- The text is the token of an operation, the case of its letters apart, with blanks around it. -/
def Spells (s : String) (op : Operation) : Prop :=
  ∃ before core after, s.toList = before ++ core ++ after ∧ (∀ c ∈ before, Text.isBlank c = true) ∧
    (∀ c ∈ after, Text.isBlank c = true) ∧ Text.SameLetters core op.token.toList

theorem mem_all (op : Operation) : op ∈ all := by
  cases op <;> decide

theorem isLowerWord_token (op : Operation) : Text.IsLowerWord op.token := by
  cases op <;> decide

theorem not_isBlank_of_mem_token (op : Operation) :
    ∀ d ∈ op.token.toList, Text.isBlank d = false := by
  have hall : op.token.toList.all fun d => Text.isBlank d = false := by
    cases op <;> decide
  simpa using hall

theorem toLower_of_isBlank {c : Char} (h : Text.isBlank c = true) : c.toLower = c := by
  obtain ⟨r, hr, hfirst, hlast⟩ := Text.Range.mem_iff.1 h
  have hletters : ∀ r ∈ Text.blankRanges, r.last < 65 ∨ 90 < r.first := by decide
  have hout := hletters r hr
  exact Text.toLower_of_outside (by omega)

/-- No letter of a token is blank, in any case. -/
theorem isTrimmed_of_sameLetters {core : List Char} (h : Text.SameLetters core op.token.toList) :
    Text.IsTrimmed Text.isBlank core := by
  refine Text.isTrimmed_of_forall (h.forall fun d hd c hcd => ?_)
  by_contra hc
  rw [Bool.not_eq_false] at hc
  rw [toLower_of_isBlank hc, (isLowerWord_token op d hd).2] at hcd
  rw [hcd, not_isBlank_of_mem_token op d hd] at hc
  cases hc

theorem ofSpelling?_eq_some_iff : ofSpelling? s = some op ↔ Spells s op := by
  rw [ofSpelling?, ofToken?, Text.find?_lower_eq_some_iff (by decide) fun op _ =>
    isLowerWord_token op, and_iff_right (mem_all op), Text.trim, String.toList_ofList]
  constructor
  · intro h
    obtain ⟨before, after, hs, hbefore, hafter⟩ := Text.exists_trimChars Text.isBlank s.toList
    exact ⟨before, _, after, hs, hbefore, hafter, h⟩
  · rintro ⟨before, core, after, hs, hbefore, hafter, h⟩
    rw [hs, Text.trimChars_append (isTrimmed_of_sameLetters h) hbefore hafter]
    exact h

/-- The characters of a spelling are blank or of the basic alphabet. -/
theorem Spells.ascii_or_blank (h : Spells s op) :
    ∀ c ∈ s.toList, c.toNat < 128 ∨ Text.isBlank c = true := by
  obtain ⟨before, core, after, hs, hbefore, hafter, hcore⟩ := h
  have hascii := hcore.ascii fun d hd => (isLowerWord_token op d hd).1.1
  intro c hc
  rw [hs, List.mem_append, List.mem_append] at hc
  rcases hc with (hc | hc) | hc
  · exact .inr (hbefore c hc)
  · exact .inl (hascii c hc)
  · exact .inr (hafter c hc)

/-- The value is an operation or spells one. -/
def IsNamed (v : Value) : Prop :=
  ∃ op, v = .member (.operation op) ∨ ∃ s, v = .text s ∧ Spells s op

theorem isNamed_text_iff : IsNamed (.text s) ↔ ∃ op, Spells s op := by
  constructor
  · rintro ⟨op, h | ⟨t, h, ht⟩⟩
    · cases h
    · cases h
      exact ⟨op, ht⟩
  · rintro ⟨op, h⟩
    exact ⟨op, .inr ⟨s, rfl, h⟩⟩

/-- No log level and no log format is spelled like an operation. -/
theorem ofSpelling?_of_word {w : Word} (h : ofSpelling? w.text = some op) : ∃ s, w = .plain s := by
  cases w with
  | plain s => exact ⟨s, rfl⟩
  | level m =>
    have hnone : ofSpelling? (Word.level m).text = none := by cases m <;> decide +kernel
    rw [hnone] at h
    cases h
  | format m =>
    have hnone : ofSpelling? (Word.format m).text = none := by cases m <;> decide +kernel
    rw [hnone] at h
    cases h

theorem exists_ofValue?_iff : (∃ op, ofValue? v = some op) ↔ IsNamed v := by
  constructor
  · rintro ⟨op, h⟩
    by_cases hv : ∃ op, v = .member (.operation op)
    · obtain ⟨op, rfl⟩ := hv
      exact ⟨op, .inl rfl⟩
    · rw [ofValue?_eq fun op hop => hv ⟨op, hop⟩] at h
      obtain ⟨w, hw, hspelled⟩ := Option.bind_eq_some_iff.1 h
      obtain ⟨s, rfl⟩ := ofSpelling?_of_word hspelled
      exact ⟨op, .inr ⟨s, Value.ofWord_of_word? hw, ofSpelling?_eq_some_iff.1 hspelled⟩⟩
  · rintro ⟨op, rfl | ⟨s, rfl, hspells⟩⟩
    · exact ⟨op, rfl⟩
    · refine ⟨op, ?_⟩
      simp only [ofValue?, Value.word?, Option.bind_some, Word.text]
      exact ofSpelling?_eq_some_iff.2 hspells

end Operation

namespace Argument

variable {s : String} {op : Operation} {v : Value}

theorem operationOfToken_text_eq_ok_iff :
    operationOfToken (.text s) = .ok op ↔ Operation.Spells s op := by
  simp only [operationOfToken_eq_ok_iff, Value.word?, Option.bind_some, Word.text,
    Operation.ofSpelling?_eq_some_iff]

/-- What spells no operation is no member of their vocabulary. -/
theorem operationOfToken_eq_error (h : ∀ op, ¬ Operation.Spells s op) :
    ∃ f, operationOfToken (.text s) = .error f ∧ f.faultClass? = some .badValue := by
  have hnone : Operation.ofSpelling? s = none := by
    rw [Option.eq_none_iff_forall_ne_some]
    exact fun op hop => h op (Operation.ofSpelling?_eq_some_iff.1 hop)
  simp [operationOfToken, Value.word?, Word.text, hnone, Fault.faultClass?]

theorem operation_eq_of_error {f : Fault} (hnull : v ≠ .null)
    (hmember : ∀ op, v ≠ .member (.operation op)) (h : operationOfToken v = .error f) :
    operation v = (do .error (.argument (.unknownOperation (← v.display)))) := by
  unfold operation
  split
  · exact absurd rfl hnull
  · exact absurd rfl (hmember _)
  · rw [h]

/-- A value that names no operation is refused for its parameter, if it has a written form to
show. -/
theorem operation_of_not_named (h : ¬ Operation.IsNamed v) :
    match v.display with
    | .ok _ => ∃ cause, operation v = .error (.argument cause) ∧ cause.field = "operation"
    | .error f => operation v = .error f := by
  by_cases hnull : v = .null
  · subst hnull
    rw [Value.display]
    exact ⟨_, rfl, rfl⟩
  have hmember : ∀ op, v ≠ .member (.operation op) := fun op hop => h ⟨op, .inl hop⟩
  cases htoken : operationOfToken v with
  | ok op =>
    have hvalue : Operation.ofValue? v = some op := by
      rw [Operation.ofValue?_eq hmember, ← operationOfToken_eq_ok_iff, htoken]
    exact absurd (Operation.exists_ofValue?_iff.1 ⟨op, hvalue⟩) h
  | error f =>
    rw [operation_eq_of_error hnull hmember htoken]
    cases v.display with
    | ok shown => exact ⟨.unknownOperation shown, rfl, rfl⟩
    | error f => rfl

/-- A text can always be shown. -/
theorem operation_text_eq_error (h : ∀ op, ¬ Operation.Spells s op) :
    ∃ cause, operation (.text s) = .error (.argument cause) ∧ cause.field = "operation" := by
  have hnamed : ¬ Operation.IsNamed (.text s) := by
    rw [Operation.isNamed_text_iff, not_exists]
    exact h
  have hrefused := operation_of_not_named hnamed
  rw [Value.display] at hrefused
  exact hrefused

theorem exists_operation_eq_error (h : ¬ Operation.IsNamed v) : ∃ f, operation v = .error f := by
  have hrefused := operation_of_not_named h
  split at hrefused
  · obtain ⟨cause, hcause, -⟩ := hrefused
    exact ⟨_, hcause⟩
  · exact ⟨_, hrefused⟩

theorem exists_operation_eq_ok (h : Operation.IsNamed v) : ∃ op, operation v = .ok op := by
  obtain ⟨op, hop⟩ := Operation.exists_ofValue?_iff.2 h
  exact ⟨op, operation_eq_ok_iff.2 hop⟩

end Argument

namespace PermissionBuilder

variable {b : PermissionBuilder} {v : Value} {f : Fault}

theorem perform_operation_of_error (h : Argument.operation v = .error f) :
    b.perform (.call (.operation v)) = (b, .refused f, []) := by
  simp [perform, set, h, bind, Except.bind]

/-- A batch is refused for its first value that is refused. -/
theorem perform_operations_of_error {before after : List Value}
    (hbefore : ∀ u ∈ before, Operation.IsNamed u) (h : Argument.operation v = .error f) :
    b.perform (.call (.operations (before ++ v :: after))) = (b, .refused f, []) := by
  have hbatch : Argument.operations (before ++ v :: after) = .error f :=
    Except.mapM_eq_error (fun u hu => Argument.exists_operation_eq_ok (hbefore u hu)) h
  simp [perform, set, hbatch, bind, Except.bind]

/-- **What names an operation.** A token is read exactly from its spellings, which hold no character
from outside the basic alphabet but blanks; every other text is no member of the vocabulary, and
refused for its parameter. So is any value that is no operation and no spelling of one, if it has a
written form; otherwise it is refused with what went wrong in writing it. A builder grants nothing
for such a value, alone or in a batch, of which the first one decides the refusal. -/
theorem operations_named :
    (∀ s op, Argument.operationOfToken (.text s) = .ok op ↔ Operation.Spells s op) ∧
      (∀ s op, Operation.Spells s op → ∀ c ∈ s.toList, c.toNat < 128 ∨ Text.isBlank c = true) ∧
      (∀ s, (∀ op, ¬ Operation.Spells s op) →
        (∃ f, Argument.operationOfToken (.text s) = .error f ∧ f.faultClass? = some .badValue) ∧
          ∃ cause, Argument.operation (.text s) = .error (.argument cause) ∧
            cause.field = "operation") ∧
      (∀ v, ¬ Operation.IsNamed v →
        match v.display with
        | .ok _ => ∃ cause, Argument.operation v = .error (.argument cause) ∧
          cause.field = "operation"
        | .error f => Argument.operation v = .error f) ∧
      ∀ (b : PermissionBuilder) v, ¬ Operation.IsNamed v → ∃ f, Argument.operation v = .error f ∧
        b.perform (.call (.operation v)) = (b, .refused f, []) ∧
        ∀ before after, (∀ u ∈ before, Operation.IsNamed u) →
          b.perform (.call (.operations (before ++ v :: after))) = (b, .refused f, []) := by
  refine ⟨fun s op => Argument.operationOfToken_text_eq_ok_iff, fun s op h => h.ascii_or_blank,
    fun s h => ⟨Argument.operationOfToken_eq_error h, Argument.operation_text_eq_error h⟩,
    fun v h => Argument.operation_of_not_named h, ?_⟩
  intro b v h
  obtain ⟨f, hf⟩ := Argument.exists_operation_eq_error h
  exact ⟨f, hf, perform_operation_of_error hf,
    fun before after hbefore => perform_operations_of_error hbefore hf⟩

/-- A wide blank and capitals make no difference; a dotless i does, and so the whole batch is
refused. -/
theorem operations_named_of_lookalikes :
    (Operation.Spells "\u3000Read_ACL\n" .readAcl ∧
        Argument.operationOfToken (.text "\u3000Read_ACL\n") = .ok .readAcl) ∧
      (∀ op, ¬ Operation.Spells "wrıte" op) ∧
      (∃ f, Argument.operationOfToken (.text "wrıte") = .error f ∧ f.faultClass? = some .badValue) ∧
      (∃ cause, Argument.operation (.text "wrıte") = .error (.argument cause) ∧
        cause.field = "operation") ∧
      (¬ Operation.IsNamed .null ∧
        ∃ cause, Argument.operation .null = .error (.argument cause) ∧ cause.field = "operation") ∧
      ∃ f, start.perform (.call (.operations [.member (.operation .read), .text "wrıte"])) =
        (start, .refused f, []) := by
  obtain ⟨hread, hletters, hbad, hrefused, hbuilder⟩ := operations_named
  have hspells : Operation.Spells "\u3000Read_ACL\n" .readAcl :=
    ⟨['\u3000'], "Read_ACL".toList, ['\n'], by decide, by simp; decide, by simp; decide, by decide⟩
  have hnone (op : Operation) : ¬ Operation.Spells "wrıte" op := by
    intro h
    have hdotless := hletters _ _ h 'ı' (by decide)
    revert hdotless
    decide
  have hnamed : ¬ Operation.IsNamed (.text "wrıte") := by
    rw [Operation.isNamed_text_iff, not_exists]
    exact hnone
  have hnull : ¬ Operation.IsNamed .null := by
    rintro ⟨op, h | ⟨s, h, -⟩⟩
    · cases h
    · cases h
  obtain ⟨f, -, -, hbatch⟩ := hbuilder start (.text "wrıte") hnamed
  refine ⟨⟨hspells, (hread _ _).2 hspells⟩, hnone, (hbad _ hnone).1, (hbad _ hnone).2,
    ⟨hnull, hrefused .null hnull⟩, f, ?_⟩
  refine hbatch [.member (.operation .read)] [] fun u hu => ?_
  rw [List.mem_singleton] at hu
  exact ⟨.read, .inl hu⟩

/-- A request that holds a number instead of a credential value has no written form. It is neither
an operation nor a text, and is refused as something that has no type of credential values, not for
its parameter. -/
theorem operation_without_display :
    Argument.operation (.record .request [.bool false, .null, .int 5, .tuple []]) =
        .error (.noAttribute "int" "value_type") ∧
      ¬ ∀ v : Value, (∀ op, v ≠ .member (.operation op)) → v.word? = none →
        ∃ cause, Argument.operation v = .error (.argument cause) ∧ cause.field = "operation" := by
  have hrefused : Argument.operation (.record .request [.bool false, .null, .int 5, .tuple []]) =
      .error (.noAttribute "int" "value_type") := by
    simp [Argument.operation, Argument.operationOfToken, Value.word?, Value.display,
      Value.displayRequest, Value.displayType, Value.kindName, bind, Except.bind]
  refine ⟨hrefused, fun h => ?_⟩
  obtain ⟨cause, hcause, -⟩ :=
    h (.record .request [.bool false, .null, .int 5, .tuple []]) (by simp) rfl
  rw [hrefused] at hcause
  cases hcause

end PermissionBuilder

end CredentialWrites
