import CredentialWrites.Proofs.Json.Printable
import CredentialWrites.Proofs.Log.Document
import CredentialWrites.Proofs.Log.Redaction

/-!
# Structured lines

A structured line is the text of one object on one line. Whatever a record holds, the line has
printable characters of the basic alphabet only, so that no text of a record can end the line or
begin another one. If the service and the extra fields that are shown are documents of texts, a
reader of the standard gets from the line what the record tells, field by field and in order, and no
field twice. The one thing that a line cannot tell apart is a character of the message from its two
halves, where these meet: the reader gets the character.

* `LineFormat.told` : what a line tells of a record, field by field.
* `LineFormat.structuredDocument_eq_ok_iff` : the members of a line, and when there is one.
* `LineFormat.reads_told_of_write` : a line is printable, and is read as what it tells.
-/

namespace CredentialWrites

namespace LineFormat

variable {service caller : Value} {redacted : List Value} {now : Clock} {r : LogRecord}

/-! ### The members of a line -/

/-- The members of a line, with the documents of the message and of the service, and with the
members of the extra fields and of the fault. -/
def lineMembers (caller : Value) (now : Clock) (r : LogRecord) (message service : Json)
    (shown attached : List (String × Json)) : List (String × Json) :=
  [("timestamp", .text now.timestamp), ("level", .text (LogThreshold.nameOf r.level)),
    ("logger", .text r.logger), ("message", message), ("service", service)]
  ++ (if caller.isTruthy then callerMembers r.origin else []) ++ shown ++ attached

/-- A record has a structured line if its message can be filled in, the fields to redact are a set,
the fault has a plain form, and the service and what is shown of the extra fields have documents. -/
theorem structuredDocument_eq_ok_iff {j : Json} :
    structuredDocument service caller redacted now r = .ok j ↔
      ∃ message attached serviceJson ms, r.message = .ok message ∧
        (∃ masked, Value.distinct redacted = .ok masked) ∧ attachedMembers r = .ok attached ∧
        document service = .ok serviceJson ∧ namedDocuments (shown redacted r) = .ok ms ∧
        .object (lineMembers caller now r (.ofPoints message.points) serviceJson ms attached) =
          j := by
  simp only [structuredDocument, Except.bind_eq_ok, Except.pure_eq_ok, extras_eq_ok_iff]
  constructor
  · rintro ⟨message, hmessage, _, ⟨hmasked, rfl⟩, attached, hattached, serviceJson,
      hservice, ms, hms, h⟩
    exact ⟨message, attached, serviceJson, ms, hmessage, hmasked, hattached, hservice, hms, h⟩
  · rintro ⟨message, attached, serviceJson, ms, hmessage, hmasked, hattached, hservice, hms, h⟩
    exact ⟨message, hmessage, _, ⟨hmasked, rfl⟩, attached, hattached, serviceJson,
      hservice, ms, hms, h⟩

/-- A structured line is a text of characters. -/
theorem write_structured_eq_ok_iff {line : List CodePoint} :
    (structured service caller redacted).write now r = .ok line ↔
      ∃ j, structuredDocument service caller redacted now r = .ok j ∧
        Text.points (j.write .log) = line := by
  rw [write, Except.bind_eq_ok]
  simp only [Except.pure_eq_ok]

/-- Halves of characters that meet in the message are written as the characters are. -/
theorem write_lineMembers_joined (ps : List CodePoint) (serviceJson : Json)
    (ms attached : List (String × Json)) :
    (Json.object (lineMembers caller now r (.ofPoints (Text.joined ps)) serviceJson ms
      attached)).write
        .log =
      (Json.object (lineMembers caller now r (.ofPoints ps) serviceJson ms attached)).write
        .log := by
  simp only [Json.write, lineMembers, List.cons_append, Json.chars, Json.memberChars,
    Json.chars_ofPoints, JsonStyle.points_joined (show JsonStyle.log.asciiOnly = true from rfl)]

/-- What is read of a line is its members, with the halves of characters joined that meet in the
message. -/
theorem read?_write_lineMembers {ps : List CodePoint} {serviceJson : Json}
    {ms attached : List (String × Json)}
    (h : (Json.object (lineMembers caller now r (.ofPoints (Text.joined ps)) serviceJson ms
      attached)).Standard) :
    Json.read?
      ((Json.object (lineMembers caller now r (.ofPoints ps) serviceJson ms attached)).write
        .log) =
      some (.object (lineMembers caller now r (.ofPoints (Text.joined ps)) serviceJson ms
        attached)) := by
  rw [← write_lineMembers_joined]
  exact Json.read?_write JsonStyle.standard_log h

/-- The documents of the fields stand under the names of the fields, and the fragile parts of them
are the numbers of the fields. -/
theorem of_namedDocuments {fields : List (String × Value)} {ms : List (String × Json)}
    (h : namedDocuments fields = .ok ms) :
    Json.membersFragile ms = (fields.flatMap fun f => numbersOf f.2).map numberDocument := by
  induction fields generalizing ms with
  | nil =>
    rw [namedDocuments, Except.ok.injEq] at h
    rw [← h]
    rfl
  | cons f fields ih =>
    obtain ⟨name, v⟩ := f
    simp only [namedDocuments, Except.bind_eq_ok, Except.pure_eq_ok] at h
    obtain ⟨j, hj, ms, hms, rfl⟩ := h
    rw [Json.membersFragile, List.flatMap_cons, List.map_append, ih hms, fragile_of_document hj]

variable (caller now) in
/-- Only the message, the service and the extra fields bring fragile parts into a line: the message
texts with half of a character, the others numbers. -/
theorem fragile_lineMembers (message : Json) {serviceJson : Json}
    {ms attached : List (String × Json)} (hattached : attachedMembers r = .ok attached)
    (hservice : document service = .ok serviceJson)
    (hms : namedDocuments (shown redacted r) = .ok ms) :
    (Json.object (lineMembers caller now r message serviceJson ms attached)).fragile =
      message.fragile ++ (numbersOf service ++
        (shown redacted r).flatMap fun f => numbersOf f.2).map numberDocument := by
  have hcaller : Json.membersFragile (if caller.isTruthy then callerMembers r.origin else []) =
      [] := by
    split
    · cases hfunction : r.origin.function <;>
        simp [callerMembers, Json.membersFragile, Json.fragile, hfunction]
    · rfl
  have hfault : Json.membersFragile attached = [] := by
    unfold attachedMembers at hattached
    split at hattached
    · simp only [faultMembers, Except.bind_eq_ok, Except.pure_eq_ok] at hattached
      obtain ⟨w, -, rfl⟩ := hattached
      simp [Json.membersFragile, Json.fragile]
    · cases hattached
      rfl
  rw [Json.fragile]
  simp [lineMembers, Json.membersFragile_append, Json.membersFragile, Json.fragile, hcaller, hfault,
    fragile_of_document hservice, of_namedDocuments hms]

/-! ### What a line tells -/

/-- What a line tells under a name: a value, or code points. -/
inductive Told where
  | value (v : Value)
  | points (ps : List CodePoint)

namespace Told

/-- The document is that of what is told. -/
def IsIn : Told → Json → Prop
  | value v, j => j.toValue = v.spelled
  | points ps, j => j = .ofPoints ps

/-- What is told, with the halves of characters that meet joined. -/
def joined : Told → Told
  | value v => value v
  | points ps => points (Text.joined ps)

end Told

/-- What a line tells of a fault and its report. -/
def toldOfFault (v : Value) (report : String) : Except Fault (List (String × Told)) := do
  let w ← v.plain
  return [("exception", .value (.map [] (Payload.entriesOf
    [("type", .text v.kindName), ("message", .text w.text), ("traceback", .text report)])))]

/-- What a line tells of the fault of a record, if it has one. -/
def toldOfAttached (r : LogRecord) : Except Fault (List (String × Told)) :=
  match r.fault? with
  | some v => toldOfFault v (r.report v)
  | none => .ok []

/-- What a line tells of the place that a record comes from. -/
def callerFields (o : Origin) : List (String × Told) :=
  [("module", .value (.text o.moduleName)),
    ("function", .value ((o.function.map .text).getD .null)), ("line", .value (.int o.line))]

/-- What a line tells of the extra fields of a record. -/
def extraFields (redacted : List Value) (r : LogRecord) : List (String × Told) :=
  (shown redacted r).map fun f => (f.1, .value f.2)

/-- What a line tells of a record with a message, field by field: the time, the level, the logger,
the message and the service, the place of the record if that is asked for, the extra fields that the
record has, and the fault if it has one. -/
def told (service caller : Value) (redacted : List Value) (now : Clock) (r : LogRecord)
    (message : Message) : Except Fault (List (String × Told)) := do
  let attached ← toldOfAttached r
  return [("timestamp", .value (.text now.timestamp)),
      ("level", .value (.text (LogThreshold.nameOf r.level))), ("logger", .value (.text r.logger)),
      ("message", .points message.points), ("service", .value service)]
    ++ (if caller.isTruthy then callerFields r.origin else []) ++ extraFields redacted r ++ attached

/-- The value is nested from plain mappings with texts as keys, lists, texts, whole numbers, truth
values and null. -/
def isExact (v : Value) : Bool :=
  v.isPlain && v.isTextDocument

/-- The names of all fields that a line can have. -/
def fieldNames : List String :=
  ["timestamp", "level", "logger", "message", "service", "module", "function", "line"]
    ++ LogRecord.extraFields ++ ["exception"]

/-- The extra fields are shown in their order, each at most once. -/
theorem names_shown : ((shown redacted r).map Prod.fst).Sublist LogRecord.extraFields := by
  have hnames : ∀ fields : List String,
      ((fields.filterMap fun field => (r.extra? field).map fun v =>
      (field, if masks redacted field then Value.text redactedMark else v)).map Prod.fst).Sublist
        fields := by
    intro fields
    induction fields with
    | nil => exact .slnil
    | cons field fields ih =>
      cases hfield : r.extra? field with
      | none =>
        rw [List.filterMap_cons_none (by rw [hfield]; rfl)]
        exact ih.cons field
      | some v =>
        rw [List.filterMap_cons_some (by rw [hfield]; rfl)]
        exact ih.cons_cons field
  exact hnames LogRecord.extraFields

/-- What is shown of a field is the mark or its value. -/
theorem of_mem_shown {f : String × Value} (h : f ∈ shown redacted r) :
    f.1 ∈ LogRecord.extraFields ∧ ∃ v, r.extra? f.1 = some v ∧
      f.2 = if masks redacted f.1 then .text redactedMark else v := by
  obtain ⟨field, hfield, hf⟩ := List.mem_filterMap.1 h
  obtain ⟨v, hv, rfl⟩ := Option.map_eq_some_iff.1 hf
  exact ⟨hfield, v, hv, rfl⟩

theorem isExact_of_mem_shown
    (hextras : ∀ field ∈ LogRecord.extraFields, masks redacted field = false →
      ∀ v, r.extra? field = some v → isExact v) :
    ∀ f ∈ shown redacted r, isExact f.2 := by
  intro f hf
  obtain ⟨hfield, v, hv, heq⟩ := of_mem_shown hf
  rw [heq]
  by_cases hmask : masks redacted f.1 = true
  · rw [if_pos hmask]
    rfl
  · rw [if_neg hmask]
    exact hextras f.1 hfield (Bool.not_eq_true _ ▸ hmask) v hv

/-! ### Members that tell -/

/-- A member of a line tells a field: it has the name of the field, it can be read back, and it is
what is told with the halves of characters joined. -/
structure Tells (m : String × Json) (f : String × Told) : Prop where
  name : m.1 = f.1
  standard : m.2.Standard
  isIn : f.2.joined.IsIn m.2

theorem tells_of_standsFor {name : String} {j : Json} {v : Value} (h : j.StandsFor v) :
    Tells (name, j) (name, .value v) :=
  ⟨rfl, h.1, h.2⟩

theorem standsFor_text (s : String) : (Json.text s).StandsFor (.text s) :=
  ⟨trivial, rfl⟩

theorem tells_points (name : String) (ps : List CodePoint) :
    Tells (name, .ofPoints (Text.joined ps)) (name, .points ps) :=
  ⟨rfl, Json.standard_ofPoints (Text.unpaired_joined ps), rfl⟩

theorem exists_standsFor_of_isExact {v : Value} {j : Json} (h : document v = .ok j)
    (hexact : isExact v) : j.StandsFor v := by
  obtain ⟨hplain, htext⟩ := (Bool.and_eq_true _ _).mp hexact
  obtain ⟨j', hj', hstands⟩ := exists_standsFor hplain htext
  rwa [Except.ok.inj (h.symm.trans hj')]

theorem tells_of_namedDocuments {fields : List (String × Value)} {ms : List (String × Json)}
    (h : namedDocuments fields = .ok ms) (hexact : ∀ f ∈ fields, isExact f.2) :
    List.Forall₂ Tells ms (fields.map fun f => (f.1, .value f.2)) := by
  induction fields generalizing ms with
  | nil =>
    rw [namedDocuments, Except.ok.injEq] at h
    rw [← h]
    exact .nil
  | cons f fields ih =>
    obtain ⟨name, v⟩ := f
    rw [List.forall_mem_cons] at hexact
    simp only [namedDocuments, Except.bind_eq_ok, Except.pure_eq_ok] at h
    obtain ⟨j, hj, ms, hms, rfl⟩ := h
    exact .cons (tells_of_standsFor (exists_standsFor_of_isExact hj hexact.1)) (ih hms hexact.2)

/-- The members that tell where a record comes from, if that is asked for. -/
theorem tells_callerMembers (caller : Value) (o : Origin) :
    List.Forall₂ Tells (if caller.isTruthy then callerMembers o else [])
      (if caller.isTruthy then callerFields o else []) := by
  have hfunction :
      ((o.function.map Json.text).getD .null).StandsFor ((o.function.map .text).getD .null) := by
    cases o.function with
    | none => exact ⟨trivial, rfl⟩
    | some name => exact standsFor_text name
  split
  · exact .cons (tells_of_standsFor (standsFor_text _)) (.cons (tells_of_standsFor hfunction)
      (.cons (tells_of_standsFor ⟨trivial, rfl⟩) .nil))
  · exact .nil

/-- The members of a fault tell what is told of it. -/
theorem tells_attachedMembers {attached : List (String × Json)}
    (h : attachedMembers r = .ok attached) :
    ∃ fields, toldOfAttached r = .ok fields ∧ (fields.map Prod.fst).Sublist ["exception"] ∧
      List.Forall₂ Tells attached fields := by
  cases hfault : r.fault? with
  | none =>
    simp only [attachedMembers, hfault, Except.ok.injEq] at h
    subst h
    exact ⟨[], by rw [toldOfAttached, hfault], List.nil_sublist _, .nil⟩
  | some v =>
    simp only [attachedMembers, hfault, faultMembers, Except.bind_eq_ok, Except.pure_eq_ok] at h
    obtain ⟨w, hw, rfl⟩ := h
    have htold : toldOfAttached r = .ok [("exception", .value (.map [] (Payload.entriesOf
        [("type", .text v.kindName), ("message", .text w.text),
          ("traceback", .text (r.report v))])))] := by
      simp [toldOfAttached, hfault, toldOfFault, hw, bind, Except.bind, pure, Except.pure]
    have hparts : Json.MembersStandFor [("type", .text v.kindName), ("message", .text w.text),
        ("traceback", .text (r.report v))] (Payload.entriesOf [("type", .text v.kindName),
        ("message", .text w.text), ("traceback", .text (r.report v))]) :=
      .cons rfl (standsFor_text _) (.cons rfl (standsFor_text _)
        (.cons rfl (standsFor_text _) .nil))
    have hfault :=
      hparts.object (c := []) Wire.text?_of_entriesOf (Wire.noneAlike_of_nodup (by simp))
    exact ⟨_, htold, List.Sublist.refl _, .cons (tells_of_standsFor hfault) .nil⟩

variable (caller now) in
/-- The members of a line with the halves in its message joined tell what the line tells. -/
theorem tells_lineMembers (message : Message) {serviceJson : Json}
    {ms attached : List (String × Json)} (hattached : attachedMembers r = .ok attached)
    (hservice : document service = .ok serviceJson)
    (hms : namedDocuments (shown redacted r) = .ok ms)
    (hexact : isExact service) (hextras : ∀ f ∈ shown redacted r, isExact f.2) :
    ∃ fields, told service caller redacted now r message = .ok fields ∧
      (fields.map Prod.fst).Sublist fieldNames ∧
      List.Forall₂ Tells (lineMembers caller now r (.ofPoints (Text.joined message.points))
        serviceJson ms attached) fields := by
  obtain ⟨report, hreport, hnames, hfault⟩ := tells_attachedMembers hattached
  have htold : told service caller redacted now r message = .ok
      ([("timestamp", .value (.text now.timestamp)),
        ("level", .value (.text (LogThreshold.nameOf r.level))),
        ("logger", .value (.text r.logger)),
        ("message", .points message.points), ("service", .value service)]
      ++ (if caller.isTruthy then callerFields r.origin else []) ++ extraFields redacted r
      ++ report) := by
    rw [told, hreport]
    rfl
  have hplaceNames : ((if caller.isTruthy then callerFields r.origin else []).map Prod.fst).Sublist
      ["module", "function", "line"] := by
    split
    · exact List.Sublist.refl _
    · exact List.nil_sublist _
  have hextraNames : ((extraFields redacted r).map Prod.fst).Sublist LogRecord.extraFields := by
    rw [extraFields, List.map_map]
    exact names_shown
  refine ⟨_, htold, ?_, ?_⟩
  · simp only [List.map_append]
    exact (((List.Sublist.refl _).append hplaceNames).append hextraNames).append hnames
  -- the four parts of a line tell the four parts of what is told
  · have hhead : List.Forall₂ Tells [("timestamp", .text now.timestamp),
        ("level", .text (LogThreshold.nameOf r.level)), ("logger", .text r.logger),
        ("message", .ofPoints (Text.joined message.points)), ("service", serviceJson)]
        [("timestamp", .value (.text now.timestamp)),
        ("level", .value (.text (LogThreshold.nameOf r.level))),
        ("logger", .value (.text r.logger)),
        ("message", .points message.points), ("service", .value service)] :=
      .cons (tells_of_standsFor (standsFor_text _)) (.cons (tells_of_standsFor (standsFor_text _))
        (.cons (tells_of_standsFor (standsFor_text _)) (.cons (tells_points _ _)
          (.cons (tells_of_standsFor (exists_standsFor_of_isExact hservice hexact)) .nil))))
    exact List.rel_append (List.rel_append
      (List.rel_append hhead (tells_callerMembers caller r.origin))
      (tells_of_namedDocuments hms hextras)) hfault

/-- Members that tell fields are those of the fields themselves, except where halves of characters
that meet are told. -/
theorem isIn_iff_of_tells {ms : List (String × Json)} {fields : List (String × Told)}
    (h : List.Forall₂ Tells ms fields) :
    List.Forall₂ (fun m f => m.1 = f.1 ∧ f.2.IsIn m.2) ms fields ↔
      ∀ f ∈ fields, ∀ ps, f.2 = .points ps → Text.Unpaired ps := by
  induction h with
  | nil => simp
  | @cons m f ms fields hm _ ih =>
    rw [List.forall₂_cons, ih, List.forall_mem_cons]
    refine and_congr_left fun _ => ?_
    obtain ⟨hname, -, hisIn⟩ := hm
    obtain ⟨name, told⟩ := f
    cases told with
    | value v => exact iff_of_true ⟨hname, hisIn⟩ nofun
    | points ps =>
      have hpoints : m.2 = .ofPoints (Text.joined ps) := hisIn
      have hinj : m.2 = .ofPoints ps ↔ Text.Unpaired ps := by
        rw [hpoints, Json.ofPoints_inj, Text.joined_eq_self_iff]
      simpa [hname, Told.IsIn] using hinj

/-- Of what a line tells, the message alone is told by its code points. -/
theorem exists_points_told_iff {message : Message} {fields : List (String × Told)}
    (h : told service caller redacted now r message = .ok fields) (ps : List CodePoint) :
    (∃ f ∈ fields, f.2 = .points ps) ↔ ps = message.points := by
  simp only [told, Except.bind_eq_ok, Except.pure_eq_ok] at h
  obtain ⟨attached, hattached, rfl⟩ := h
  have hcaller : ∀ f ∈ (if caller.isTruthy then callerFields r.origin else []),
      f.2 ≠ .points ps := by
    split
    · simp [callerFields]
    · simp
  have hextras : ∀ f ∈ extraFields redacted r, f.2 ≠ .points ps := by
    intro f hf hps
    obtain ⟨_, _, rfl⟩ := List.mem_map.1 hf
    cases hps
  have hfault : ∀ f ∈ attached, f.2 ≠ .points ps := by
    unfold toldOfAttached at hattached
    split at hattached
    · simp only [toldOfFault, Except.bind_eq_ok, Except.pure_eq_ok] at hattached
      obtain ⟨w, -, rfl⟩ := hattached
      simp
    · cases hattached
      simp
  constructor
  · rintro ⟨f, hf, hps⟩
    simp only [List.mem_append, List.mem_cons, List.not_mem_nil, or_false] at hf
    obtain (((rfl | rfl | rfl | rfl | rfl) | hf) | hf) | hf := hf
    · cases hps
    · cases hps
    · cases hps
    · exact (Told.points.inj hps).symm
    · cases hps
    · exact absurd hps (hcaller f hf)
    · exact absurd hps (hextras f hf)
    · exact absurd hps (hfault f hf)
  · rintro rfl
    exact ⟨("message", .points message.points), by simp, rfl⟩

/-- **Structured lines cannot be forged.** Whenever a record has a structured line, the line
consists of printable characters of the basic alphabet, and so has no line break. If the service and
the extra fields that are not masked are documents of texts, then a reader of the standard gets from
the line one object, whose members are exactly the fields that the line tells, in their order and
none twice, with what is told of them, where every two halves of a character that meet in the
message are joined. So the message is read code point by code point unless two such halves meet in
it, and all else is read exactly. -/
theorem reads_told_of_write {line : List CodePoint}
    (h : (structured service caller redacted).write now r = .ok line) :
    ∃ text : String, line = Text.points text ∧ Text.IsBasic text.toList ∧
      (isExact service → (∀ field ∈ LogRecord.extraFields, masks redacted field = false →
        ∀ v, r.extra? field = some v → isExact v) →
      ∃ message fields ms, r.message = .ok message ∧
        told service caller redacted now r message = .ok fields ∧ (fields.map Prod.fst).Nodup ∧
        Json.read? text = some (.object ms) ∧
        List.Forall₂ (fun m f => m.1 = f.1 ∧ f.2.joined.IsIn m.2) ms fields ∧
        (List.Forall₂ (fun m f => m.1 = f.1 ∧ f.2.IsIn m.2) ms fields ↔
          Text.Unpaired message.points)) := by
  obtain ⟨j, hj, rfl⟩ := write_structured_eq_ok_iff.1 h
  obtain ⟨message, attached, serviceJson, ms, hmessage, -, hattached, hdocument, hms, rfl⟩ :=
    structuredDocument_eq_ok_iff.1 hj
  refine ⟨_, rfl, ?_, fun hservice hextras => ?_⟩
  · -- texts are escaped, and numbers are all that is written without quotes
    refine Json.isBasic_write JsonStyle.basic_log fun written hwritten => ?_
    rw [fragile_lineMembers caller now _ hattached hdocument hms, List.mem_append] at hwritten
    obtain hwritten | hwritten := hwritten
    · exact absurd hwritten (Json.number_notMem_fragile_ofPoints _ _)
    · obtain ⟨x, -, hx⟩ := List.mem_map.1 hwritten
      cases hx
      cases x with
      | none => decide
      | some x => exact DecimalLayout.isBasic_write (by decide) x
  · obtain ⟨fields, htold, hnames, htells⟩ := tells_lineMembers caller now message hattached
      hdocument hms hservice (isExact_of_mem_shown hextras)
    -- no extra field has the name of another member of the line
    have hnodup : (fields.map Prod.fst).Nodup := hnames.nodup (by decide)
    have hboth : List.Forall₂ (fun m f => m.2.Standard ∧ m.1 = f.1 ∧ f.2.joined.IsIn m.2)
        (lineMembers caller now r (.ofPoints (Text.joined message.points)) serviceJson ms attached)
        fields := htells.imp fun _ _ ht => ⟨ht.standard, ht.name, ht.isIn⟩
    obtain ⟨hstandard, hmembers⟩ := (List.forall₂_and_left _ _).1 hboth
    have hread := read?_write_lineMembers (Json.membersStandard_iff.2 hstandard)
    refine ⟨message, fields, _, hmessage, htold, hnodup, hread, hmembers, ?_⟩
    rw [isIn_iff_of_tells htells]
    have hpoints := exists_points_told_iff htold
    constructor
    · intro hall
      obtain ⟨f, hf, hps⟩ := (hpoints message.points).2 rfl
      exact hall f hf _ hps
    · intro hunpaired f hf ps hps
      rw [(hpoints ps).1 ⟨f, hf, hps⟩]
      exact hunpaired

/-- A record whose message and fault look like other lines, with a character beyond the basic plane
and half of one in its message, a nested extra field, an extra field that looks like a level, a
value that must not be told, and a report of some lines. -/
def forgedRecord : LogRecord where
  logger := "credhub\u2028"
  level := 20
  template := .text "created %s%c\n\x7b\"level\": \"ERROR\"\x7d"
  args := [.text "😀\u007f\\", .int 0xDE00]
  origin := ⟨"/srv/app/job.py", 7, none⟩
  extras := [("value", .float ⟨false, .infinite⟩), ("level", .text "ERROR"),
    ("actor", .map [0] [(.text "é\"", .list [1] [.null, .bool true, .int (-12), .text "\t"])])]
  attached := .fault (.fault .badValue [2] [.text "broken\r\n"] []) "Traceback:\n  line 7\n"

/-- The line of such a record. -/
theorem reads_told_of_write_forged : ∃ text fields ms,
    (structured (.text "credhub-client") (.bool true) [.text "value"]).write
      ⟨2024, 5, 17, 8, 30, 0, 1⟩ forgedRecord = .ok (Text.points text) ∧
    Text.IsBasic text.toList ∧
    fields.map Prod.fst = ["timestamp", "level", "logger", "message", "service",
      "module", "function", "line", "actor", "value", "exception"] ∧
    Json.read? text = some (.object ms) ∧
    List.Forall₂ (fun m f => m.1 = f.1 ∧ Told.IsIn f.2 m.2) ms fields := by
  have hextras : ∀ field ∈ LogRecord.extraFields, masks [.text "value"] field = false →
      ∀ v, forgedRecord.extra? field = some v → isExact v := by
    intro field hfield hmask v hv
    simp only [LogRecord.extraFields, List.mem_cons, List.not_mem_nil, or_false] at hfield
    rcases hfield with rfl | rfl | rfl | rfl | rfl | rfl
    · cases hv
    · cases hv
    · cases hv
    · cases hv
    · cases hv
      rfl
    · cases hmask
  obtain ⟨line, hline⟩ : ∃ line,
      (structured (.text "credhub-client") (.bool true) [.text "value"]).write
        ⟨2024, 5, 17, 8, 30, 0, 1⟩ forgedRecord = .ok line := ⟨_, rfl⟩
  obtain ⟨text, rfl, hbasic, hread⟩ := reads_told_of_write hline
  obtain ⟨message, fields, ms, hmessage, htold, -, hread, -, hexact⟩ := hread rfl hextras
  refine ⟨text, fields, ms, hline, hbasic, ?_, hread, hexact.2 ?_⟩
  · have hnames : (told (.text "credhub-client") (.bool true) [.text "value"]
        ⟨2024, 5, 17, 8, 30, 0, 1⟩ forgedRecord message).map (List.map Prod.fst) =
          .ok ["timestamp", "level", "logger", "message", "service", "module", "function", "line",
            "actor", "value", "exception"] := rfl
    rw [htold] at hnames
    exact Except.ok.inj hnames
  · have hforged : forgedRecord.message.map (fun m => decide (Text.Unpaired m.points)) = .ok true :=
      rfl
    rw [hmessage] at hforged
    exact of_decide_eq_true (Except.ok.inj hforged)

/-- A record whose message is made of the two halves of a character, each written by its number. -/
def splitRecord : LogRecord where
  logger := "app"
  level := 20
  template := .text "%c%c"
  args := [.int 0xD83D, .int 0xDE00]
  origin := ⟨"/srv/app/job.py", 7, none⟩
  extras := []
  attached := .nothing

/-- The message of such a record has two code points, and what is read under its name is one
character. -/
theorem split_message_read_as_character : ∃ text message ms,
    (structured (.text "app") (.bool false) []).write ⟨2024, 5, 17, 8, 30, 0, 1⟩ splitRecord =
      .ok (Text.points text) ∧
    splitRecord.message = .ok message ∧
    message.points = [.ofNat 0xD83D, .ofNat 0xDE00] ∧
    Json.read? text = some (.object ms) ∧
    ms.lookup "message" = some (.text "😀") ∧
    ∀ fields, told (.text "app") (.bool false) [] ⟨2024, 5, 17, 8, 30, 0, 1⟩ splitRecord message =
      .ok fields → ¬ List.Forall₂ (fun m f => m.1 = f.1 ∧ Told.IsIn f.2 m.2) ms fields := by
  have hstandard : (Json.object (lineMembers (.bool false) ⟨2024, 5, 17, 8, 30, 0, 1⟩ splitRecord
      (.ofPoints (Text.joined [.ofNat 0xD83D, .ofNat 0xDE00])) (.text "app") [] [])).Standard :=
    ⟨trivial, trivial, trivial, trivial, trivial, trivial⟩
  refine ⟨_, _, _, write_structured_eq_ok_iff.2 ⟨_, rfl, rfl⟩, rfl, rfl,
    read?_write_lineMembers hstandard, rfl, fun fields hfields hall => ?_⟩
  cases hfields
  obtain _ | ⟨-, _ | ⟨-, _ | ⟨-, _ | ⟨hmessage, -⟩⟩⟩⟩ := hall
  cases hmessage.2

end LineFormat

end CredentialWrites
