import CredentialWrites.Proofs.Json.Refused
import CredentialWrites.Proofs.Log.Line

/-!
# Which records have a line of the standard

Extra fields may hold any nested value. A record is lost, without any line, if a mapping among them
has a key that no name can be made of, for what stands in for other values does not reach keys; a
fault without a text takes its record with it too. A line that is written is one object of the
standard unless it shows an infinity or what is no number, for which the standard has no text.

* `LineFormat.Loggable` : the nested values, in which the keys of mappings can be anything hashable.
* `LineFormat.exists_write_iff` : the records that have a line.
* `LineFormat.exists_read?_iff` : the records whose line is an object of the standard.
-/

namespace CredentialWrites

namespace Value

variable {v : Value} {vs : List Value} {es : List (Value × Value)}

theorem exists_displayAll (h : ∀ v ∈ vs, ∃ s, display v = .ok s) :
    ∃ ss, displayAll vs = .ok ss := by
  induction vs with
  | nil => exact ⟨[], by rw [displayAll]⟩
  | cons v vs ih =>
    rw [List.forall_mem_cons] at h
    obtain ⟨⟨s, hs⟩, h⟩ := h
    obtain ⟨ss, hss⟩ := ih h
    exact ⟨s :: ss, by rw [displayAll, hs, hss]; rfl⟩

theorem exists_displayEntries (hkeys : ∀ e ∈ es, ∃ s, display e.1 = .ok s)
    (hvalues : ∀ e ∈ es, ∃ s, display e.2 = .ok s) : ∃ ss, displayEntries es = .ok ss := by
  induction es with
  | nil => exact ⟨[], by rw [displayEntries]⟩
  | cons e es ih =>
    obtain ⟨k, v⟩ := e
    rw [List.forall_mem_cons] at hkeys hvalues
    obtain ⟨⟨key, hkey⟩, hkeys⟩ := hkeys
    obtain ⟨⟨value, hvalue⟩, hvalues⟩ := hvalues
    obtain ⟨ss, hss⟩ := ih hkeys hvalues
    exact ⟨(key ++ ": " ++ value) :: ss, by rw [displayEntries, hkey, hvalue, hss]; rfl⟩

/-- Whatever is nested without records has a written form. -/
theorem Nested.exists_display (h : Nested false v) : ∃ s, display v = .ok s := by
  induction h with
  | @scalar v h => cases v <;> first | exact ⟨_, by rw [display]⟩ | cases h
  | tuple _ ih =>
    obtain ⟨ss, hss⟩ := exists_displayAll ih
    exact ⟨tupleText ss, by rw [display, hss]; rfl⟩
  | list _ ih =>
    obtain ⟨ss, hss⟩ := exists_displayAll ih
    exact ⟨bracketed "[" "]" ss, by rw [display, hss]; rfl⟩
  | @members v items hv _ _ ih =>
    obtain ⟨ss, hss⟩ := exists_displayAll ih
    cases v <;> cases hv
    · exact ⟨frozenSetText ss, by rw [display, hss]; rfl⟩
    · exact ⟨setText ss, by rw [display, hss]; rfl⟩
  | @entries v es hv _ _ _ ihkey ihvalue =>
    obtain ⟨ss, hss⟩ := exists_displayEntries ihkey ihvalue
    cases v <;> cases hv
    · exact ⟨bracketed "mappingproxy(\x7b" "\x7d)" ss, by rw [display, hss]; rfl⟩
    · exact ⟨bracketed "\x7b" "\x7d" ss, by rw [display, hss]; rfl⟩
  | record hrecords _ _ => cases hrecords

/-- Whatever is nested without records has a plain form. -/
theorem Nested.exists_plain (h : Nested false v) : ∃ w, v.plain = .ok w := by
  obtain ⟨s, hs⟩ := h.exists_display
  -- texts, members and views have plain forms of their own, and all others their written form
  cases v with
  | text s => exact ⟨.plain s, by rw [plain]⟩
  | member m => exact ⟨.plain m.fullName, by rw [plain]⟩
  | view es =>
    rw [display, Except.bind_eq_ok] at hs
    obtain ⟨ss, hss, -⟩ := hs
    exact ⟨.plain (bracketed "\x7b" "\x7d" ss), by rw [plain, hss]; rfl⟩
  | record kind fields => cases (nested_record_iff.1 h).1
  | fault c cell args attrs =>
    cases h with
    | scalar h | members h | entries h => cases h
  | object kind cell attrs =>
    cases h with
    | scalar h | members h | entries h => cases h
  | _ =>
    refine ⟨.plain s, ?_⟩
    rw [plain]
    · rw [hs]
      rfl
    all_goals simp

end Value

namespace LineFormat

open Value hiding document

variable {service caller : Value} {redacted : List Value} {now : Clock} {r : LogRecord} {v : Value}

/-! ### Values of extra fields -/

theorem forall_plainsOfAll {p : Value → Prop} {vs : List Value}
    (h : ∀ v ∈ vs, ∀ w ∈ plainsOf v, p w) : ∀ w ∈ plainsOfAll vs, p w := by
  induction vs with
  | nil => simp [plainsOfAll]
  | cons v vs ih =>
    rw [List.forall_mem_cons] at h
    rw [plainsOfAll, List.forall_mem_append]
    exact ⟨h.1, ih h.2⟩

theorem forall_plainsOfEntries {p : Value → Prop} {es : List (Value × Value)}
    (h : ∀ e ∈ es, ∀ w ∈ plainsOf e.2, p w) : ∀ w ∈ plainsOfEntries es, p w := by
  induction es with
  | nil => simp [plainsOfEntries]
  | cons e es ih =>
    obtain ⟨k, v⟩ := e
    rw [List.forall_mem_cons] at h
    rw [plainsOfEntries, List.forall_mem_append]
    exact ⟨h.1, ih h.2⟩

/-- The parts of a nested value that stand as texts have plain forms. -/
theorem exists_plain_of_mem_plainsOf (h : Nested false v) :
    ∀ w ∈ plainsOf v, ∃ s, w.plain = .ok s := by
  induction h with
  | tuple _ ih | list _ ih =>
    rw [plainsOf]
    exact forall_plainsOfAll ih
  | record hrecords _ _ => cases hrecords
  | @scalar v h =>
    have hnested : Nested false v := .scalar h
    have hplain := hnested.exists_plain
    cases v <;> simp_all [plainsOf, isScalar]
  | @members v items hv hitems h _ =>
    have hnested : Nested false v := .members hv hitems h
    have hplain := hnested.exists_plain
    cases v <;> simp_all [plainsOf, members?]
  | @entries v es hv hkeys hkey hvalue _ ihvalue =>
    have hnested : Nested false v := .entries hv hkeys hkey hvalue
    have hplain := hnested.exists_plain
    cases v with
    | view es => simpa [plainsOf] using hplain
    | map c es =>
      obtain rfl := Option.some.inj hv
      rw [plainsOf]
      exact forall_plainsOfEntries ihvalue
    | _ => cases hv

/-- The values that extra fields are expected to hold: nested from lists, tuples, mappings with keys
of any kind, sets and values without parts. -/
inductive Loggable : Value → Prop where
  | nested {v : Value} (h : Nested false v) : Loggable v
  | list {c : Cell} {items : List Value} (h : ∀ v ∈ items, Loggable v) : Loggable (.list c items)
  | tuple {items : List Value} (h : ∀ v ∈ items, Loggable v) : Loggable (.tuple items)
  | map {c : Cell} {es : List (Value × Value)} (hkeys : AreMembers (es.map Prod.fst))
    (h : ∀ e ∈ es, Loggable e.2) : Loggable (.map c es)

/-- A value of an extra field has a document if all keys that it shows have names. -/
theorem exists_document_iff_of_loggable (h : Loggable v) :
    (∃ j, document v = .ok j) ↔ ∀ k ∈ keysOf v, isNameable k := by
  rw [exists_document_iff]
  refine and_iff_left ?_
  -- whatever has to stand as a text has a plain form
  induction h with
  | nested h => exact exists_plain_of_mem_plainsOf h
  | list _ ih | tuple _ ih =>
    rw [plainsOf]
    exact forall_plainsOfAll ih
  | map _ _ ih =>
    rw [plainsOf]
    exact forall_plainsOfEntries ih

theorem exists_namedDocuments_iff {fields : List (String × Value)} :
    (∃ ms, namedDocuments fields = .ok ms) ↔ ∀ f ∈ fields, ∃ j, document f.2 = .ok j := by
  induction fields with
  | nil => simp [namedDocuments]
  | cons f fields ih =>
    obtain ⟨name, v⟩ := f
    rw [List.forall_mem_cons, ← ih]
    simp only [namedDocuments, Except.bind_eq_ok, Except.pure_eq_ok]
    constructor
    · rintro ⟨_, j, hj, ms, hms, -⟩
      exact ⟨⟨j, hj⟩, ms, hms⟩
    · rintro ⟨⟨j, hj⟩, ms, hms⟩
      exact ⟨_, j, hj, ms, hms, rfl⟩

/-! ### Numbers of a line -/

/-- The number has a value of its own: it is neither an infinity nor what is no number. -/
def isFinite : Option Double → Bool
  | some x => match x.magnitude with
    | .finite _ _ => true
    | .infinite => false
  | none => false

/-- A finite number is written as the standard has it, and any other as a foreign word. -/
theorem numberWritten_cases (x : Option Double) :
    isFinite x ∧ Json.number? (numberWritten x).toList = some (.number (numberWritten x), []) ∨
      isFinite x = false ∧ Json.IsForeign (numberWritten x) := by
  cases x with
  | none => exact .inr ⟨rfl, Json.isForeign_nan⟩
  | some x =>
    obtain ⟨negative, magnitude⟩ := x
    cases magnitude with
    | finite m e => exact .inl ⟨rfl, DecimalLayout.number?_write .log rfl⟩
    | infinite =>
      refine .inr ⟨rfl, ?_⟩
      cases negative with
      | true => exact Json.isForeign_minusInfinity
      | false => exact Json.isForeign_infinity

/-- A document with a message and numbers is one of the standard if the numbers are finite. -/
theorem standard_iff_isFinite {j message : Json} {xs : List (Option Double)}
    (hmessage : message.Standard) (h : j.fragile = message.fragile ++ xs.map numberDocument) :
    j.Known ∧ (j.Standard ↔ ∀ x ∈ xs, isFinite x) := by
  rw [Json.standard_iff] at hmessage
  constructor
  · intro part hpart
    rw [h, List.mem_append] at hpart
    obtain hpart | hpart := hpart
    · exact .inl (hmessage part hpart)
    · obtain ⟨x, -, rfl⟩ := List.mem_map.1 hpart
      exact (numberWritten_cases x).imp And.right fun hx => ⟨_, rfl, hx.2⟩
  · rw [Json.standard_iff, h, List.forall_mem_append, List.forall_mem_map]
    refine (and_iff_right hmessage).trans (forall₂_congr fun x _ => ?_)
    rcases numberWritten_cases x with ⟨hfinite, hnumber⟩ | ⟨hfinite, hforeign⟩
    · exact iff_of_true hnumber hfinite
    · refine iff_of_false (fun hnumber => hforeign.not_number hnumber) ?_
      rw [hfinite]
      exact Bool.false_ne_true

/-! ### Records -/

/-- A set can be made of texts. -/
theorem exists_distinct_of_texts (h : ∀ v ∈ redacted, v.text?.isSome) :
    ∃ masked, Value.distinct redacted = .ok masked := by
  have hfold : ∀ (vs start : List Value), (∀ v ∈ vs, v.text?.isSome) →
      ∃ masked, vs.foldlM (fun items v => insert v items) start = .ok masked := by
    intro vs
    induction vs with
    | nil => exact fun start _ => ⟨start, rfl⟩
    | cons v vs ih =>
      intro start hvs
      rw [List.forall_mem_cons] at hvs
      have hhashable : v.unhashable? = none := unhashable?_of_isKey (isKey_of_text? hvs.1)
      obtain ⟨masked, hmasked⟩ := ih (if start.any (alike v) then start else start ++ [v]) hvs.2
      refine ⟨masked, ?_⟩
      rw [List.foldlM_cons, Except.bind_eq_ok]
      exact ⟨_, insert_eq_ok_iff.2 ⟨hhashable, rfl⟩, hmasked⟩
  exact hfold redacted [] h

theorem exists_attachedMembers_iff :
    (∃ attached, attachedMembers r = .ok attached) ↔ ∀ v, r.fault? = some v → ∃ w,
      v.plain = .ok w := by
  cases hfault : r.fault? with
  | none => simp [attachedMembers, hfault]
  | some v =>
    simp only [attachedMembers, hfault, faultMembers, Except.bind_eq_ok, Except.pure_eq_ok,
      Option.some.injEq, forall_eq']
    constructor
    · rintro ⟨_, w, hw, -⟩
      exact ⟨w, hw⟩
    · rintro ⟨w, hw⟩
      exact ⟨_, w, hw, rfl⟩

theorem loggable_of_mem_shown
    (hextras : ∀ field ∈ LogRecord.extraFields, masks redacted field = false →
      ∀ v, r.extra? field = some v → Loggable v) :
    ∀ f ∈ shown redacted r, Loggable f.2 := by
  intro f hf
  obtain ⟨hfield, v, hv, heq⟩ := of_mem_shown hf
  rw [heq]
  by_cases hmask : masks redacted f.1 = true
  · rw [if_pos hmask]
    exact .nested (.scalar rfl)
  · rw [if_neg hmask]
    exact hextras f.1 hfield (Bool.not_eq_true _ ▸ hmask) v hv

/-- The document of a text has no numbers. -/
theorem exists_document_of_text? (h : v.text?.isSome) :
    (∃ j, document v = .ok j) ∧ numbersOf v = [] := by
  obtain ⟨s, hs⟩ := Option.isSome_iff_exists.1 h
  obtain rfl | ⟨m, rfl, -⟩ := eq_of_text?_eq_some hs
  · exact ⟨⟨_, by rw [document]⟩, rfl⟩
  · exact ⟨⟨_, by rw [document]⟩, rfl⟩

/-- A record whose message can be filled in has a structured line exactly if its fault, if it has
one, has a plain form, and all keys of mappings that are shown have names. -/
theorem exists_write_iff (hservice : service.text?.isSome)
    (hredacted : ∀ v ∈ redacted, v.text?.isSome) {message : Message}
    (hmessage : r.message = .ok message)
    (hextras : ∀ f ∈ shown redacted r, Loggable f.2) :
    (∃ text : String, (structured service caller redacted).write now r = .ok (Text.points text)) ↔
      (∀ v, r.fault? = some v → ∃ w, v.plain = .ok w) ∧
        ∀ f ∈ shown redacted r, ∀ k ∈ keysOf f.2, isNameable k := by
  have hshown : (∃ ms, namedDocuments (shown redacted r) = .ok ms) ↔
      ∀ f ∈ shown redacted r, ∀ k ∈ keysOf f.2, isNameable k := by
    rw [exists_namedDocuments_iff]
    exact forall₂_congr fun f hf => exists_document_iff_of_loggable (hextras f hf)
  -- all other parts of a line are there for every record
  rw [← exists_attachedMembers_iff, ← hshown]
  simp only [write_structured_eq_ok_iff, structuredDocument_eq_ok_iff]
  constructor
  · rintro ⟨_, _, ⟨_, attached, _, ms, -, -, hattached, -, hms, -⟩, -⟩
    exact ⟨⟨attached, hattached⟩, ms, hms⟩
  · rintro ⟨⟨attached, hattached⟩, ms, hms⟩
    obtain ⟨⟨serviceJson, hdocument⟩, -⟩ := exists_document_of_text? hservice
    exact ⟨_, _, ⟨message, attached, serviceJson, ms, hmessage, exists_distinct_of_texts hredacted,
      hattached, hdocument, hms, rfl⟩, rfl⟩

/-- A structured line is one object of the standard exactly if all numbers that it shows are
finite. -/
theorem exists_read?_iff (hservice : service.text?.isSome) {text : String}
    (h : (structured service caller redacted).write now r = .ok (Text.points text)) :
    (∃ ms, Json.read? text = some (.object ms)) ↔
      ∀ f ∈ shown redacted r, ∀ x ∈ numbersOf f.2, isFinite x := by
  obtain ⟨j, hj, htext⟩ := write_structured_eq_ok_iff.1 h
  obtain rfl := Text.eq_of_points_eq htext
  obtain ⟨message, attached, serviceJson, ms, -, -, hattached, hdocument, hms, rfl⟩ :=
    structuredDocument_eq_ok_iff.1 hj
  -- the line is also that of the message with its halves joined, which the standard has a text for
  rw [← write_lineMembers_joined]
  have hmessage := Json.standard_ofPoints (Text.unpaired_joined message.points)
  have hfragile := fragile_lineMembers caller now (.ofPoints (Text.joined message.points)) hattached
    hdocument hms
  rw [(exists_document_of_text? hservice).2, List.nil_append] at hfragile
  obtain ⟨hknown, hstandard⟩ := standard_iff_isFinite hmessage hfragile
  have hread := Json.exists_read?_write_iff JsonStyle.standard_log hknown
  rw [List.forall_mem_flatMap] at hstandard
  rw [← hstandard, ← hread]
  constructor
  · rintro ⟨ms, hms⟩
    exact ⟨_, hms⟩
  · intro hsome
    exact ⟨_, Json.read?_write JsonStyle.standard_log (hread.1 hsome)⟩

/-- **Which records have a line of the standard.** For a record whose message can be filled in and
whose extra fields hold nested values, where they are not masked: it has a structured line exactly
if its fault, if it has one, has a plain form, and every key of a mapping that the line shows is a
text, a number, a truth value or null. The line is then one object of the standard exactly if none
of the numbers that it shows is an infinity or no number at all. -/
theorem strict_line_iff (hservice : service.text?.isSome)
    (hredacted : ∀ v ∈ redacted, v.text?.isSome) {message : Message}
    (hmessage : r.message = .ok message)
    (hextras : ∀ field ∈ LogRecord.extraFields, masks redacted field = false →
      ∀ v, r.extra? field = some v → Loggable v) :
    ((∃ text : String, (structured service caller redacted).write now r = .ok (Text.points text)) ↔
      (∀ v, r.fault? = some v → ∃ w, v.plain = .ok w) ∧
        ∀ f ∈ shown redacted r, ∀ k ∈ keysOf f.2, isNameable k) ∧
    ∀ text : String, (structured service caller redacted).write now r = .ok (Text.points text) →
      ((∃ ms, Json.read? text = some (.object ms)) ↔
        ∀ f ∈ shown redacted r, ∀ x ∈ numbersOf f.2, isFinite x) :=
  ⟨exists_write_iff hservice hredacted hmessage (loggable_of_mem_shown hextras),
    fun _ h => exists_read?_iff hservice h⟩

/-- Of a record with a set, a pair and a finite number there is a line of the standard, of one with
what is no number there is a line that the standard refuses, and one with a pair as the key of a
mapping has no line. -/
theorem strict_line_iff_examples :
    (∃ text ms, (structured (.text "credhub-client") (.bool true) []).write
      ⟨2024, 5, 17, 8, 30, 0, 1⟩
        (.trace "credhub" "made" [("value", .map [0] [(.bool true, .tuple [.set [1] [.bytes [7]],
          .float ⟨true, .finite 3 (-1)⟩])])]) = .ok (Text.points text) ∧
      Json.read? text = some (.object ms)) ∧
    (∃ text, (structured (.text "credhub-client") (.bool true) []).write ⟨2024, 5, 17, 8, 30, 0, 1⟩
        (.trace "credhub" "made" [("value", .list [0] [.nan [1]])]) = .ok (Text.points text) ∧
      ∀ ms, Json.read? text ≠ some (.object ms)) ∧
    ¬ ∃ text : String, (structured (.text "credhub-client") (.bool true) []).write
        ⟨2024, 5, 17, 8, 30, 0, 1⟩ (.trace "credhub" "made"
          [("value", .map [0] [(.tuple [.int 1, .int 2], .null)])]) = .ok (Text.points text) := by
  have hextras : ∀ {v : Value}, Loggable v → ∀ field ∈ LogRecord.extraFields,
      masks [] field = false →
      ∀ w, (LogRecord.trace "credhub" "made" [("value", v)]).extra? field = some w →
      Loggable w := by
    intro v hv field hfield _ w hw
    simp only [LogRecord.extraFields, List.mem_cons, List.not_mem_nil, or_false] at hfield
    rcases hfield with rfl | rfl | rfl | rfl | rfl | rfl
    · cases hw
    · cases hw
    · cases hw
    · cases hw
    · cases hw
    · cases hw
      exact hv
  have key (v : Value) (hv : Loggable v) :=
    @strict_line_iff (.text "credhub-client") (.bool true) [] ⟨2024, 5, 17, 8, 30, 0, 1⟩
      (.trace "credhub" "made" [("value", v)]) rfl (by simp) _ rfl (hextras hv)
  have hshown : ∀ v, shown [] (.trace "credhub" "made" [("value", v)]) = [("value", v)] :=
    fun _ => rfl
  have hfault : ∀ v w, (LogRecord.trace "credhub" "made" [("value", v)]).fault? ≠ some w := nofun
  refine ⟨?_, ?_, ?_⟩
  · have hset : Loggable (.set [1] [.bytes [7]]) :=
      .nested (.members rfl ⟨by simp [unhashable?], rfl⟩ (by simpa using .scalar rfl))
    have hvalue : Loggable (.map [0] [(.bool true, .tuple [.set [1] [.bytes [7]],
        .float ⟨true, .finite 3 (-1)⟩])]) :=
      .map ⟨by simp [unhashable?], rfl⟩
        (by simpa using .tuple (by simpa using ⟨hset, .nested (.scalar rfl)⟩))
    obtain ⟨hwritten, hread⟩ := key _ hvalue
    obtain ⟨text, htext⟩ := hwritten.2 ⟨fun v hv => absurd hv (hfault _ v), by rw [hshown]; decide⟩
    obtain ⟨ms, hms⟩ := (hread text htext).2 (by rw [hshown]; decide)
    exact ⟨text, ms, htext, hms⟩
  · have hvalue : Loggable (.list [0] [.nan [1]]) := .list (by simpa using .nested (.scalar rfl))
    obtain ⟨hwritten, hread⟩ := key _ hvalue
    obtain ⟨text, htext⟩ := hwritten.2 ⟨fun v hv => absurd hv (hfault _ v), by rw [hshown]; decide⟩
    refine ⟨text, htext, fun ms hms => ?_⟩
    have hfinite := (hread text htext).1 ⟨ms, hms⟩
    rw [hshown] at hfinite
    revert hfinite
    decide
  · have hvalue : Loggable (.map [0] [(.tuple [.int 1, .int 2], .null)]) :=
      .map ⟨by simp [unhashable?, unhashableAmong?], rfl⟩ (by simpa using .nested (.scalar rfl))
    intro hwritten
    have hkeys := ((key _ hvalue).1.1 hwritten).2
    rw [hshown] at hkeys
    revert hkeys
    decide

end LineFormat

end CredentialWrites
