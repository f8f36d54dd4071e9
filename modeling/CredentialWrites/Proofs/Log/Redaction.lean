import CredentialWrites.Log.Line
import CredentialWrites.Proofs.Value.Comparison
import CredentialWrites.Proofs.Value.Keys

/-!
# Redaction

What a line shows of the extra fields of a record: those of `LogRecord.extraFields` that it has, in
that order, with a mark in place of the value of a field that is to be redacted. Of such a field a
line tells no more than that it is there, and of all other fields nothing.

* `LineFormat.masks` : the fields that are to be redacted.
* `LineFormat.shown` : the extra fields that a line shows.
* `LogRecord.AgreesBut` : two records that differ only where a line is to be silent.
* `LineFormat.write_eq_of_agreesBut` : such records are written alike.
-/

namespace CredentialWrites

namespace Value

/-- A set of some values has a text as a member if one of the values is that text. -/
theorem any_same_text_of_distinct {vs items : List Value} (h : distinct vs = .ok items)
    (s : String) : items.any (same (text s)) = vs.any (fun v => v.text? == some s) := by
  have hsame : ∀ v : Value, same (text s) v = (v.text? == some s) := fun _ => rfl
  -- the members that are there already count for those that are not put again
  suffices hfold : ∀ (vs start items : List Value),
      vs.foldlM (fun items v => insert v items) start = .ok items →
      items.any (same (text s)) = (start.any (same (text s)) || vs.any fun v =>
        v.text? == some s) by
    simpa using hfold vs [] items h
  intro vs
  induction vs with
  | nil =>
    intro start items h
    rw [List.foldlM_nil, Except.pure_eq_ok] at h
    simp [h]
  | cons v vs ih =>
    intro start items h
    rw [List.foldlM_cons, Except.bind_eq_ok] at h
    obtain ⟨next, hnext, h⟩ := h
    obtain ⟨-, rfl⟩ := insert_eq_ok_iff.1 hnext
    rw [ih _ _ h, List.any_cons, ← Bool.or_assoc]
    congr 1
    by_cases hany : start.any (alike v)
    · rw [if_pos hany]
      -- whatever is alike a text is that text
      by_cases hv : v.text? = some s
      · obtain ⟨w, hw, halike⟩ := List.any_eq_true.1 hany
        have hws : w.text? = some s := by
          rw [alike, Bool.and_eq_true] at halike
          exact (same_text_iff hv).1 halike.1
        have hstart : start.any (same (text s)) = true :=
          List.any_eq_true.2 ⟨w, hw, by rw [hsame, hws, beq_self_eq_true]⟩
        rw [hstart, Bool.true_or]
      · rw [beq_eq_false_iff_ne.2 hv, Bool.or_false]
    · rw [if_neg hany, List.any_append, List.any_cons, List.any_nil, Bool.or_false, hsame]

end Value

namespace LineFormat

/-- The field is one of those that are to be redacted. -/
def masks (redacted : List Value) (field : String) : Bool :=
  redacted.any fun v => v.text? == some field

/-- The extra fields that a line shows of a record. -/
def shown (redacted : List Value) (r : LogRecord) : List (String × Value) :=
  LogRecord.extraFields.filterMap fun field =>
    (r.extra? field).map fun v => (field, if masks redacted field then .text redactedMark else v)

/-- The extra fields are shown if a set can be made of those that are to be redacted. -/
theorem extras_eq_ok_iff {redacted : List Value} {r : LogRecord} {fields : List (String × Value)} :
    extras redacted r = .ok fields ↔
      (∃ masked, Value.distinct redacted = .ok masked) ∧ shown redacted r = fields := by
  have hshown : ∀ masked, Value.distinct redacted = .ok masked →
      (LogRecord.extraFields.filterMap fun field => (r.extra? field).map fun v =>
        (field, if masked.any (Value.same (.text field)) then .text redactedMark else v))
      = shown redacted r := by
    intro masked hmasked
    simp only [Value.any_same_text_of_distinct hmasked]
    rfl
  rw [extras, Except.bind_eq_ok]
  constructor
  · rintro ⟨masked, hmasked, h⟩
    rw [Except.pure_eq_ok, hshown masked hmasked] at h
    exact ⟨⟨masked, hmasked⟩, h⟩
  · rintro ⟨⟨masked, hmasked⟩, h⟩
    refine ⟨masked, hmasked, ?_⟩
    rw [Except.pure_eq_ok, hshown masked hmasked]
    exact h

end LineFormat

/-- The two records are the same in all that a line may tell: in what every record has, in which of
the extra fields they have, and in the values of those that are not masked. -/
structure LogRecord.AgreesBut (masked : String → Bool) (r s : LogRecord) : Prop where
  logger : s.logger = r.logger
  level : s.level = r.level
  template : s.template = r.template
  args : s.args = r.args
  origin : s.origin = r.origin
  attached : s.attached = r.attached
  present : ∀ field ∈ LogRecord.extraFields, (s.extra? field).isSome = (r.extra? field).isSome
  unmasked : ∀ field ∈ LogRecord.extraFields, masked field = false → s.extra? field = r.extra? field

namespace LineFormat

variable {redacted : List Value} {r s : LogRecord}

/-- A masked field is shown by its name alone. -/
theorem shown_eq_of_agreesBut (h : LogRecord.AgreesBut (masks redacted) r s) :
    shown redacted s = shown redacted r := by
  refine List.filterMap_congr fun field hfield => ?_
  by_cases hmask : masks redacted field = true
  · match s.extra? field, r.extra? field, h.present field hfield with
    | none, none, _ => rfl
    | some v, some w, _ => simp only [Option.map_some, hmask, if_true]
  · rw [Bool.not_eq_true] at hmask
    rw [h.unmasked field hfield hmask]

theorem extras_eq_of_agreesBut (h : LogRecord.AgreesBut (masks redacted) r s) :
    extras redacted s = extras redacted r := by
  cases hmasked : Value.distinct redacted with
  | error e => simp [extras, hmasked, bind, Except.bind]
  | ok masked =>
    have hs : extras redacted s = .ok (shown redacted s) :=
      extras_eq_ok_iff.2 ⟨⟨masked, hmasked⟩, rfl⟩
    have hr : extras redacted r = .ok (shown redacted r) :=
      extras_eq_ok_iff.2 ⟨⟨masked, hmasked⟩, rfl⟩
    rw [hs, hr, shown_eq_of_agreesBut h]

/-- Two records that are the same in all that a line may tell are written as the same text at the
same time, or are refused with the same fault, whatever the form of the lines and the masked
values. -/
theorem write_eq_of_agreesBut (f : LineFormat) (now : Clock) {r s : LogRecord}
    (h : LogRecord.AgreesBut (masks f.redacted) r s) : f.write now r = f.write now s := by
  have hmessage : s.message = r.message := by
    rw [LogRecord.message, LogRecord.message, h.template, h.args]
  have hfault : s.fault? = r.fault? := by rw [LogRecord.fault?, LogRecord.fault?, h.attached]
  have hreport : s.report = r.report := by
    funext v
    rw [LogRecord.report, LogRecord.report, LogRecord.background, LogRecord.background, h.attached]
  cases f with
  | structured service caller redacted =>
    have hextras : extras redacted s = extras redacted r := extras_eq_of_agreesBut h
    have hattached : attachedMembers s = attachedMembers r := by
      rw [attachedMembers, attachedMembers, hfault, hreport]
    rw [write, write, structuredDocument, structuredDocument, hmessage, hextras, hattached, h.level,
      h.logger, h.origin]
  | console redacted =>
    have hextras : extras redacted s = extras redacted r := extras_eq_of_agreesBut h
    rw [write, write, consoleText, consoleText, hmessage, hextras, hfault, hreport,
      h.level, h.logger]

/-- Two records of the library that hold different secrets in a masked field, and one of which has a
field that is never written. -/
theorem write_eq_of_agreesBut_secrets :
    LogRecord.AgreesBut (masks [.text "value"])
      (.trace "credhub" "created" [("actor", .text "uaa-user:1"), ("value", .text "s3cret")])
      (.trace "credhub" "created"
        [("note", .int 4), ("value", .list [0] [.nan [1]]), ("actor", .text "uaa-user:1")])
    ∧ ∀ f ∈ [structured (.text "credhub-client") (.bool true) [.text "value"],
      console [.text "value"]], ∀ now : Clock,
        f.write now
          (.trace "credhub" "created" [("actor", .text "uaa-user:1"), ("value", .text "s3cret")])
        = f.write now (.trace "credhub" "created"
          [("note", .int 4), ("value", .list [0] [.nan [1]]), ("actor", .text "uaa-user:1")]) := by
  have hagrees : LogRecord.AgreesBut (masks [.text "value"])
      (.trace "credhub" "created" [("actor", .text "uaa-user:1"), ("value", .text "s3cret")])
      (.trace "credhub" "created"
        [("note", .int 4), ("value", .list [0] [.nan [1]]), ("actor", .text "uaa-user:1")]) :=
    { logger := rfl, level := rfl, template := rfl, args := rfl, origin := rfl, attached := rfl
      present := by decide
      unmasked := by
        intro field hfield hmask
        simp only [LogRecord.extraFields, List.mem_cons, List.not_mem_nil, or_false] at hfield
        rcases hfield with rfl | rfl | rfl | rfl | rfl | rfl
        · rfl
        · rfl
        · rfl
        · rfl
        · rfl
        · cases hmask }
  refine ⟨hagrees, fun f hf now => ?_⟩
  simp only [List.mem_cons, List.not_mem_nil, or_false] at hf
  rcases hf with rfl | rfl
  · exact write_eq_of_agreesBut _ now hagrees
  · exact write_eq_of_agreesBut _ now hagrees

end LineFormat

end CredentialWrites
