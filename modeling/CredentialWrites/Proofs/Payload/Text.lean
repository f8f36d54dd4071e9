import CredentialWrites.Json.Reader
import CredentialWrites.Number.Reading
import CredentialWrites.Payload.Wire
import CredentialWrites.Proofs.Json.RoundTrip
import CredentialWrites.Proofs.Payload.Fidelity
import CredentialWrites.Proofs.Value.Spelling

/-!
# Requests as texts

The text of a payload and its mapping agree: a reader of the standard gets from the text what the
mapping spells, whatever the indentation. Both renderings follow the value in the same way; where
the text is refused, for a value that is nested too deeply, the mapping may still exist.

* `Json.toValue` : what a reader makes of a document.
* `Wire.standsFor_of_gives_document` : the document of a value is read as what its dump spells.
* `RequestBuilder.read?_toJson_of_run` : the text of a request that was built in a run.
-/

namespace CredentialWrites

namespace Json

/-- The number that is not a whole one. -/
def doubleOf (written : String) : Value :=
  match Number.read? written with
  | some (.number x) => .float x
  | _ => .null

mutual

/-- What a reader makes of a document: of its objects mappings, in which the last member of a name
counts, and of its arrays lists. Values have no texts with half of a character; of such a text it
makes the tuple of its numbers, and a tuple of nothing else. -/
def toValue : Json → Value
  | null => .null
  | bool b => .bool b
  | int i => .int i
  | number written => doubleOf written
  | text s => .text s
  | broken ps => .tuple (ps.map fun p => .int p.number)
  | array items => .list [] (itemValues items)
  | object members => .map [] ((Value.entriesOf (memberValues members)).toOption.getD [])

/-- `toValue` for every item. -/
def itemValues : List Json → List Value
  | [] => []
  | item :: rest => toValue item :: itemValues rest

/-- `toValue` for the value of every member. -/
def memberValues : List (String × Json) → List (Value × Value)
  | [] => []
  | (name, value) :: rest => (.text name, toValue value) :: memberValues rest

end

end Json

namespace Value

/-- Keys are told apart by what they spell. -/
theorem noneAlike_map_spelled {ks : List Value} (h : ∀ k ∈ ks, k.text?.isSome) :
    noneAlike (ks.map spelled) = noneAlike ks := by
  induction ks with
  | nil => rfl
  | cons k ks ih =>
    rw [List.forall_mem_cons] at h
    obtain ⟨x, hx⟩ := Option.isSome_iff_exists.1 h.1
    have hall : ks.all ((fun w => !alike w k.spelled) ∘ spelled) = ks.all fun w => !alike w k := by
      rw [Bool.eq_iff_iff, List.all_eq_true, List.all_eq_true]
      refine forall₂_congr fun w hw => ?_
      obtain ⟨y, hy⟩ := Option.isSome_iff_exists.1 (h.2 w hw)
      rw [Function.comp, spelled_of_text? hx, spelled_of_text? hy, alike_texts hy hx,
        alike_texts rfl rfl]
    rw [List.map_cons, noneAlike, noneAlike, List.all_map, hall, ih h.2]

theorem keys_spelledEntries (es : List (Value × Value)) :
    (spelledEntries es).map Prod.fst = (es.map Prod.fst).map spelled := by
  induction es with
  | nil => rfl
  | cons e es ih => rw [spelledEntries, List.map_cons, List.map_cons, List.map_cons, ih]

theorem text?_of_areWireEntries {es : List (Value × Value)} (h : areWireEntries es) :
    ∀ k ∈ es.map Prod.fst, k.text?.isSome := by
  induction es with
  | nil => simp
  | cons e es ih =>
    simp only [areWireEntries, Bool.and_eq_true] at h
    rw [List.map_cons, List.forall_mem_cons]
    exact ⟨h.1.1, ih h.2⟩

/-- A mapping whose keys are texts is made of its own entries, and so is what it spells. -/
theorem entriesOf_of_texts {es : List (Value × Value)} (h : ∀ k ∈ es.map Prod.fst, k.text?.isSome)
    (halike : noneAlike (es.map Prod.fst)) :
    entriesOf es = .ok es ∧ entriesOf (spelledEntries es) = .ok (spelledEntries es) := by
  have hhashable : ∀ {ds : List (Value × Value)}, (∀ k ∈ ds.map Prod.fst, k.text?.isSome) →
      ∀ p ∈ ds, p.1.unhashable? = none := fun hds p hp =>
    unhashable?_of_isKey (isKey_of_text? (hds _ (List.mem_map_of_mem hp)))
  have hspelled : ∀ k ∈ (spelledEntries es).map Prod.fst, k.text?.isSome := by
    rw [keys_spelledEntries, List.forall_mem_map]
    intro k hk
    obtain ⟨x, hx⟩ := Option.isSome_iff_exists.1 (h k hk)
    rw [spelled_of_text? hx]
    rfl
  refine ⟨entriesOf_eq_ok (hhashable h) halike, entriesOf_eq_ok (hhashable hspelled) ?_⟩
  rw [keys_spelledEntries, noneAlike_map_spelled h]
  exact halike

end Value

namespace Json

/-- The document stands for a value: its text can be read back, and is read as what the value
spells. -/
def StandsFor (j : Json) (v : Value) : Prop :=
  j.Standard ∧ j.toValue = v.spelled

/-- `StandsFor` for items. -/
def ItemsStandFor (js : List Json) (vs : List Value) : Prop :=
  ItemsStandard js ∧ itemValues js = Value.spelledAll vs

/-- `StandsFor` for members. -/
def MembersStandFor (ms : List (String × Json)) (es : List (Value × Value)) : Prop :=
  MembersStandard ms ∧ memberValues ms = Value.spelledEntries es

variable {j : Json} {js : List Json} {ms : List (String × Json)} {v k : Value} {vs : List Value}
  {es : List (Value × Value)} {name : String} {c : Cell}

theorem ItemsStandFor.nil : ItemsStandFor [] [] :=
  ⟨trivial, rfl⟩

theorem ItemsStandFor.cons (h : j.StandsFor v) (hs : ItemsStandFor js vs) :
    ItemsStandFor (j :: js) (v :: vs) :=
  ⟨⟨h.1, hs.1⟩, by rw [itemValues, Value.spelledAll, h.2, hs.2]⟩

theorem MembersStandFor.nil : MembersStandFor [] [] :=
  ⟨trivial, rfl⟩

theorem MembersStandFor.cons (hk : k.text? = some name) (h : j.StandsFor v)
    (hs : MembersStandFor ms es) : MembersStandFor ((name, j) :: ms) ((k, v) :: es) :=
  ⟨⟨h.1, hs.1⟩, by rw [memberValues, Value.spelledEntries, h.2, hs.2, Value.spelled_of_text? hk]⟩

theorem ItemsStandFor.array (h : ItemsStandFor js vs) : (array js).StandsFor (.list c vs) :=
  ⟨by rw [Standard]; exact h.1, by rw [toValue, h.2, Value.spelled]⟩

/-- Members that stand for entries with keys of their own stand for the mapping. -/
theorem MembersStandFor.object (h : MembersStandFor ms es)
    (hkeys : ∀ k ∈ es.map Prod.fst, k.text?.isSome) (halike : Value.noneAlike (es.map Prod.fst)) :
    (object ms).StandsFor (.map c es) := by
  refine ⟨by rw [Standard]; exact h.1, ?_⟩
  rw [toValue, h.2, (Value.entriesOf_of_texts hkeys halike).2, Value.spelled]
  rfl

end Json

namespace Wire

open Making Value Payload

variable {s t : State} {level : Nat} {shape : FieldShape}

/-- The name of a member is the text that is its key. -/
theorem key_of_text? {k : Value} {x : String} (hk : k.text? = some x) : key k = .ok x := by
  obtain rfl | ⟨m, rfl, -, rfl⟩ := eq_of_text?_eq_some hk <;> rfl

/-- A member of a vocabulary is dumped as it is, unless the attributes of a permission are
wanted. -/
theorem dump_member {m : Member} (hlevel : ¬ (!shape.fits (.member m) && maxLevel < level)) :
    dump shape level (.member m) = if shape = .permission then Making.map []
      else pure (.member m) := by
  rw [dump, if_neg hlevel]

theorem standsFor_of_gives_document_member {m : Member} {j : Json} (hm : m.isText)
    (h : (document shape level (.member m)).Gives s j t) (u : State) :
    ∃ w u', (dump shape level (.member m)).Gives u w u' ∧ j.StandsFor w := by
  rw [document, gives_unless, ofMember] at h
  obtain ⟨hlevel, h⟩ := h
  rw [dump_member hlevel]
  split at h
  · obtain ⟨rfl, -⟩ := gives_pure.1 h
    rw [if_pos ‹_›]
    exact ⟨_, _, rfl, Json.MembersStandFor.nil.object (by simp) rfl⟩
  · rw [if_neg ‹_›]
    simp only [gives_unless, gives_pure] at h
    obtain ⟨-, rfl, -⟩ := h
    refine ⟨_, u, gives_pure.2 ⟨rfl, rfl⟩, trivial, ?_⟩
    rw [Json.toValue, spelled, if_pos hm]

/-- A key that is a text is dumped as it is. -/
theorem gives_dump_key {k : Value} (hk : k.text?.isSome) (u : State) :
    (dump .any level k).Gives u k u := by
  obtain ⟨x, hx⟩ := Option.isSome_iff_exists.1 hk
  have hdump : dump .any level k = pure k := by
    obtain rfl | ⟨m, rfl, -⟩ := eq_of_text?_eq_some hx <;> (unfold dump; split <;> rfl)
  rw [hdump]
  exact gives_pure.2 ⟨rfl, rfl⟩

theorem text?_of_entriesOf {fields : List (String × Value)} :
    ∀ k ∈ (Payload.entriesOf fields).map Prod.fst, k.text?.isSome := by
  intro k hk
  obtain ⟨e, he, rfl⟩ := List.mem_map.1 hk
  obtain ⟨f, -, rfl⟩ := List.mem_map.1 he
  rfl

/-- Fields with names of their own have keys of their own. -/
theorem noneAlike_of_nodup {fields : List (String × Value)} (h : (fields.map Prod.fst).Nodup) :
    noneAlike ((Payload.entriesOf fields).map Prod.fst) := by
  induction fields with
  | nil => rfl
  | cons f fields ih =>
    rw [List.map_cons, List.nodup_cons] at h
    simp only [Payload.entriesOf, List.map_cons, noneAlike, Bool.and_eq_true, List.all_eq_true]
    refine ⟨?_, ih h.2⟩
    intro k hk
    obtain ⟨e, he, rfl⟩ := List.mem_map.1 hk
    obtain ⟨g, hg, rfl⟩ := List.mem_map.1 he
    rw [alike_texts rfl rfl]
    simp only [Bool.not_eq_true', beq_eq_false_iff_ne]
    exact fun heq => h.1 (heq ▸ List.mem_map_of_mem hg)

mutual

/-- The document of a value stands for the dump of the value. -/
theorem standsFor_of_gives_document : ∀ {v : Value} {shape : FieldShape} {level : Nat} {s t : State}
    {j : Json}, v.isWire → (document shape level v).Gives s j t → ∀ u, ∃ w u',
    (dump shape level v).Gives u w u' ∧ j.StandsFor w
  | .map c es, shape, level, s, t, j, hv, h, u => by
    simp only [isWire, Bool.and_eq_true] at hv
    simp only [document, gives_unless, gives_bind, gives_pure] at h
    obtain ⟨hlevel, ms, _, hms, rfl, -⟩ := h
    rw [dump, if_neg hlevel]
    obtain ⟨es', u', hes, hstand, hkeys⟩ := membersStandFor_of_gives_members hv.2 hms u
    -- the keys are those of the mapping, so that the mapping can be made anew
    have htexts : ∀ k ∈ es'.map Prod.fst, k.text?.isSome := hkeys ▸ text?_of_areWireEntries hv.2
    have halike : noneAlike (es'.map Prod.fst) := hkeys ▸ hv.1
    refine ⟨.map [u'.moment] es', { u' with moment := u'.moment + 1 }, ?_,
      hstand.object htexts halike⟩
    simp only [gives_bind, gives_lift]
    exact ⟨es', u', hes, es', u', ⟨(entriesOf_of_texts htexts halike).1, rfl⟩, rfl⟩
  | .list c items, shape, level, s, t, j, hv, h, u => by
    rw [isWire] at hv
    simp only [document, gives_unless, gives_bind, gives_pure] at h
    obtain ⟨hlevel, js, _, hjs, rfl, -⟩ := h
    rw [dump, if_neg hlevel]
    obtain ⟨items', u', hitems, hstand⟩ := itemsStandFor_of_gives_documents hv hjs u
    exact ⟨.list [u'.moment] items', _, gives_bind.2 ⟨items', u', hitems, rfl⟩, hstand.array⟩
  | .object kind c attrs, shape, level, s, t, j, hv, h, u => by
    rw [document, gives_unless] at h
    obtain ⟨hlevel, h⟩ := h
    rw [dump, if_neg hlevel]
    simp only [isWire, Bool.and_eq_true, decide_eq_true_eq] at hv
    obtain ⟨⟨hmodel, hnodup⟩, hattrs⟩ := hv
    -- the fields of a permission or of a model become members, and the same fields become entries
    have key : ∀ {kind' : ObjectKind} {level' : Nat},
        (do return Json.object (← fieldMembers kind' level' attrs) : Making Json).Gives s j t →
        ∃ w u', (do Making.map (Payload.entriesOf (← dumpFields kind' level' attrs)) :
          Making Value).Gives u w u' ∧ j.StandsFor w := by
      intro kind' level' h
      simp only [gives_bind, gives_pure] at h
      obtain ⟨ms, _, hms, rfl, -⟩ := h
      obtain ⟨fields, u', hfields, hstand, hnames⟩ :=
        membersStandFor_of_gives_fieldMembers hattrs hms u
      exact ⟨_, _, gives_bind.2 ⟨fields, u', hfields, rfl⟩,
        hstand.object text?_of_entriesOf (noneAlike_of_nodup (hnames.nodup hnodup))⟩
    split at h
    · rw [if_pos ‹_›]
      exact key h
    · rw [if_neg ‹_›, if_pos hmodel]
      exact key h
  | .null, shape, level, s, t, j, _, h, u | .bool _, shape, level, s, t, j, _, h, u
  | .int _, shape, level, s, t, j, _, h, u | .text _, shape, level, s, t, j, _, h, u => by
    simp only [document, gives_unless, gives_pure] at h
    obtain ⟨hlevel, rfl, -⟩ := h
    simp only [dump, if_neg hlevel]
    exact ⟨_, u, gives_pure.2 ⟨rfl, rfl⟩, trivial, rfl⟩
  | .member m, shape, level, s, t, j, hv, h, u => by
    refine standsFor_of_gives_document_member ?_ h u
    simpa [isWire, text?] using hv
  | .float _, _, _, _, _, _, hv, _, _ | .nan _, _, _, _, _, _, hv, _, _
  | .bytes _, _, _, _, _, _, hv, _, _ | .tuple _, _, _, _, _, _, hv, _, _
  | .frozenSet _, _, _, _, _, _, hv, _, _ | .view _, _, _, _, _, _, hv, _, _
  | .record _ _, _, _, _, _, _, hv, _, _ | .set _ _, _, _, _, _, _, hv, _, _
  | .buffer _ _, _, _, _, _, _, hv, _, _ | .stream _ _, _, _, _, _, _, hv, _, _
  | .fault _ _ _ _, _, _, _, _, _, hv, _, _ => by cases hv

theorem itemsStandFor_of_gives_documents : ∀ {vs : List Value} {shape : FieldShape} {level : Nat}
    {s t : State} {js : List Json}, areWire vs → (documents shape level vs).Gives s js t → ∀ u,
    ∃ ws u', (dumpAll shape level vs).Gives u ws u' ∧ Json.ItemsStandFor js ws
  | [], shape, level, s, t, js, _, h, u => by
    rw [documents] at h
    obtain ⟨rfl, -⟩ := gives_pure.1 h
    exact ⟨[], u, gives_pure.2 ⟨rfl, rfl⟩, .nil⟩
  | v :: vs, shape, level, s, t, js, hv, h, u => by
    simp only [areWire, Bool.and_eq_true] at hv
    simp only [documents, gives_bind, gives_pure] at h
    obtain ⟨j, _, hj, js, _, hjs, rfl, -⟩ := h
    obtain ⟨w, u', hw, hstands⟩ := standsFor_of_gives_document hv.1 hj u
    obtain ⟨ws, u'', hws, hstand⟩ := itemsStandFor_of_gives_documents hv.2 hjs u'
    refine ⟨w :: ws, u'', ?_, .cons hstands hstand⟩
    simp only [dumpAll, gives_bind, gives_pure]
    exact ⟨w, u', hw, ws, u'', hws, rfl, rfl⟩

theorem membersStandFor_of_gives_members : ∀ {es : List (Value × Value)} {level : Nat} {s t : State}
    {ms : List (String × Json)}, areWireEntries es → (members level es).Gives s ms t → ∀ u,
    ∃ es' u', (dumpEntries level es).Gives u es' u' ∧ Json.MembersStandFor ms es' ∧
      es'.map Prod.fst = es.map Prod.fst
  | [], level, s, t, ms, _, h, u => by
    rw [members] at h
    obtain ⟨rfl, -⟩ := gives_pure.1 h
    exact ⟨[], u, gives_pure.2 ⟨rfl, rfl⟩, .nil, rfl⟩
  | (k, v) :: es, level, s, t, ms, hv, h, u => by
    simp only [areWireEntries, Bool.and_eq_true] at hv
    obtain ⟨x, hx⟩ := Option.isSome_iff_exists.1 hv.1.1
    simp only [members, key_of_text? hx, accept, gives_bind, gives_pure] at h
    obtain ⟨_, _, ⟨rfl, rfl⟩, j, _, hj, ms, _, hms, rfl, -⟩ := h
    obtain ⟨w, u', hw, hstands⟩ := standsFor_of_gives_document hv.1.2 hj u
    obtain ⟨es', u'', hes, hstand, hkeys⟩ := membersStandFor_of_gives_members hv.2 hms u'
    refine ⟨(k, w) :: es', u'', ?_, .cons hx hstands hstand, ?_⟩
    · simp only [dumpEntries, gives_bind, gives_pure]
      exact ⟨k, u, gives_dump_key hv.1.1 u, w, u', hw, es', u'', hes, rfl, rfl⟩
    · rw [List.map_cons, List.map_cons, hkeys]

theorem membersStandFor_of_gives_fieldMembers :
    ∀ {attrs : List (String × Value)} {kind : ObjectKind} {level : Nat} {s t : State} {ms :
    List (String × Json)}, areWireAttrs attrs →
    (fieldMembers kind level attrs).Gives s ms t → ∀ u,
    ∃ fields u', (dumpFields kind level attrs).Gives u fields u' ∧
      Json.MembersStandFor ms (Payload.entriesOf fields) ∧
      (fields.map Prod.fst).Sublist (attrs.map Prod.fst)
  | [], kind, level, s, t, ms, _, h, u => by
    rw [fieldMembers] at h
    obtain ⟨rfl, -⟩ := gives_pure.1 h
    exact ⟨[], u, gives_pure.2 ⟨rfl, rfl⟩, .nil, .slnil⟩
  | (name, v) :: attrs, kind, level, s, t, ms, hv, h, u => by
    simp only [areWireAttrs, Bool.and_eq_true] at hv
    rw [fieldMembers] at h
    rw [dumpFields]
    split at h
    · rename_i hname
      rw [if_pos hname]
      simp only [gives_bind, gives_pure] at h
      obtain ⟨j, _, hj, ms, _, hms, rfl, -⟩ := h
      obtain ⟨w, u', hw, hstands⟩ := standsFor_of_gives_document hv.1 hj u
      obtain ⟨fields, u'', hfields, hstand, hnames⟩ :=
        membersStandFor_of_gives_fieldMembers hv.2 hms u'
      refine ⟨(name, w) :: fields, u'', ?_, .cons rfl hstands hstand, hnames.cons_cons name⟩
      simp only [gives_bind, gives_pure]
      exact ⟨w, u', hw, fields, u'', hfields, rfl, rfl⟩
    · rename_i hname
      rw [if_neg hname]
      obtain ⟨fields, u', hfields, hstand, hnames⟩ := membersStandFor_of_gives_fieldMembers hv.2 h u
      exact ⟨fields, u', hfields, hstand, hnames.cons name⟩

end

end Wire

namespace Value

theorem areWire_iff {vs : List Value} : areWire vs ↔ ∀ v ∈ vs, v.isWire := by
  induction vs with
  | nil => simp [areWire]
  | cons v vs ih => simp [areWire, ih]

theorem areWireAttrs_iff {attrs : List (String × Value)} :
    areWireAttrs attrs ↔ ∀ a ∈ attrs, a.2.isWire := by
  induction attrs with
  | nil => simp [areWireAttrs]
  | cons a attrs ih =>
    obtain ⟨name, v⟩ := a
    simp [areWireAttrs, ih]

end Value

namespace Payload

open Making Value

variable {s t : State} {c c' : Cell} {attrs : List (String × Value)} {indent : Value}
    {text : String}

/-! ### Payloads -/

theorem standard_of_styleOf {style : JsonStyle} (h : styleOf indent = .ok style) :
    style.Standard := by
  unfold styleOf at h
  split at h
  · cases h
    exact JsonStyle.standard_compact
  split at h
  · cases h
  split at h
  · cases h
  split at h
  · cases h
  · cases h
    exact JsonStyle.standard_indented _

theorem written_sublist : (written attrs).Sublist attrs :=
  List.filter_sublist.trans List.filter_sublist

/-- The text of a payload is read as the document of its fields, whatever the indentation, and the
document stands for the mapping of the payload. -/
theorem read?_of_gives_toJson (hwire : (Value.object .requestPayload c attrs).isWire)
    (h : (toJson (.object .requestPayload c attrs) indent).Gives s text t) :
    ∃ ms, (Wire.fieldMembers .requestPayload 1 (written attrs)).Gives s ms t ∧
      Json.read? text = some (.object ms) ∧
      ∀ u, ∃ d u', (toDict (.object .requestPayload c attrs)).Gives u d u' ∧
        (Json.object ms).StandsFor d := by
  simp only [toJson, gives_bind, gives_lift, gives_pure] at h
  obtain ⟨style, _, ⟨hstyle, rfl⟩, ms, _, hms, rfl, rfl⟩ := h
  simp only [isWire, Bool.and_eq_true, decide_eq_true_eq] at hwire
  have hwritten : areWireAttrs (written attrs) :=
    areWireAttrs_iff.2 fun a ha => areWireAttrs_iff.1 hwire.2 a (written_sublist.subset ha)
  have hdict : ∀ u, ∃ d u', (toDict (.object .requestPayload c attrs)).Gives u d u' ∧
      (Json.object ms).StandsFor d := fun u => by
    obtain ⟨fields, u', hfields, hstand, hnames⟩ :=
      Wire.membersStandFor_of_gives_fieldMembers hwritten hms u
    have hnodup := (hnames.trans (written_sublist.map Prod.fst)).nodup hwire.1.2
    exact ⟨.map [u'.moment] (entriesOf fields), _, gives_bind.2 ⟨fields, u', hfields, rfl⟩,
      hstand.object Wire.text?_of_entriesOf (Wire.noneAlike_of_nodup hnodup)⟩
  obtain ⟨d, u', -, hstandard, -⟩ := hdict s
  exact ⟨ms, hms, Json.read?_write (standard_of_styleOf hstyle) hstandard, hdict⟩

theorem isWire_optionalText (o : Option String) : (optionalText o).isWire := by
  cases o <;> rfl

theorem isWire_permissionModel (identity : Option String) (tokens : List String) :
    (permissionModel c c' identity tokens).isWire := by
  have htokens : areWire (tokens.map .text) := areWire_iff.2 (by simp [isWire, text?])
  simp [permissionModel, isWire, areWireAttrs, isWire_optionalText, htokens, ObjectKind.isModel]

theorem isWire_requestModel {overwrite : Bool} {name type : Option String} {value : Value}
    {payloads : List Value} (hvalue : value.isWire) (hpayloads : ∀ p ∈ payloads, p.isWire) :
    (requestModel c c' overwrite name type value payloads).isWire := by
  simp [requestModel, isWire, areWireAttrs, isWire_optionalText, hvalue, areWire_iff.2 hpayloads,
    ObjectKind.isModel]

/-! ### Requests -/

theorem isWire_of_forall₂ {gs : List Grant} {payloads : List Value}
    (h : List.Forall₂ (fun g p => ∃ u u',
      (ofPermission (Grant.toValue g)).Gives u p u') gs payloads) :
    ∀ p ∈ payloads, p.isWire := by
  induction h with
  | nil => simp
  | cons hp _ ih =>
    obtain ⟨_, _, hp⟩ := hp
    obtain ⟨_, _, identity, tokens, -, -, rfl⟩ := eq_of_gives_ofPermission hp
    exact List.forall_mem_cons.2 ⟨isWire_permissionModel identity tokens, ih⟩

/-- The payload of a request whose content is a document of texts can be written down. -/
theorem isWire_of_gives_ofRequest {r : Request} {payload : Value}
    (hcontent : ((r.value.map CredentialValue.content).getD .null).isTextDocument)
    (h : (ofRequest r.toValue).Gives s payload t) :
    ∃ c attrs, payload = .object .requestPayload c attrs ∧ payload.isWire := by
  obtain ⟨c, c', value, payloads, ⟨_, _, hthaw⟩, hpayloads, rfl⟩ := eq_of_gives_ofRequest h
  obtain ⟨hvalue, hplain⟩ := document_of_gives_thaw (isDocument_of_isTextDocument hcontent) hthaw
  exact ⟨c, _, rfl, isWire_requestModel
    (isWire_of_isPlain hplain (isTextDocument_of_document_eq hvalue hcontent))
    (isWire_of_forall₂ hpayloads)⟩

/-- The text of a request is read as what its mapping spells, whatever the indentation. -/
theorem read?_of_gives_requestToJson {r : Request}
    (hcontent : ((r.value.map CredentialValue.content).getD .null).isTextDocument)
    (h : (requestToJson r.toValue indent).Gives s text t) :
    ∃ j, Json.read? text = some j ∧
      (∃ d u, (requestToDict r.toValue).Gives s d u ∧ j.toValue = d.spelled) ∧
      ∀ indent' text' u, (requestToJson r.toValue indent').Gives s text' u →
        Json.read? text' = some j := by
  obtain ⟨payload, v, hpayload, htext⟩ := gives_bind.1 h
  obtain ⟨c, attrs, rfl, hwire⟩ := isWire_of_gives_ofRequest hcontent hpayload
  obtain ⟨ms, hms, hread, hdict⟩ := read?_of_gives_toJson hwire htext
  obtain ⟨d, u, hd, -, hspelled⟩ := hdict v
  refine ⟨.object ms, hread, ⟨d, u, gives_bind.2 ⟨_, v, hpayload, hd⟩, hspelled⟩, ?_⟩
  -- the payload is the same, and so are the members of its document
  intro indent' text' u' h'
  obtain ⟨payload', v', hpayload', htext'⟩ := gives_bind.1 h'
  obtain ⟨rfl, rfl⟩ := hpayload.unique hpayload'
  obtain ⟨ms', hms', hread', -⟩ := read?_of_gives_toJson hwire htext'
  obtain ⟨rfl, -⟩ := hms.unique hms'
  exact hread'

/-- What a mapping spells is told by what its value and its permissions spell. -/
theorem spelled_requestDict {d d' : Cell} {overwrite : Bool} {name type : Option String}
    {value value' : Value} {permissions permissions' : List Value}
    (hvalue : value.spelled = value'.spelled)
    (hpermissions : spelledAll permissions = spelledAll permissions') :
    (requestDict c c' overwrite name type value permissions).spelled =
      (requestDict d d' overwrite name type value' permissions').spelled := by
  cases permissions <;> cases permissions' <;>
    simp_all [requestDict, spelled, spelledAll, spelledEntries]

theorem spelledAll_of_forall₂ {ps : List Permission} {ws : List Value}
    (h : List.Forall₂ Grant.RendersAs (ps.map Permission.grant) ws) :
    spelledAll ws = ps.map fun p => (permissionDict [] [] (p.actor.map Actor.identity)
      (p.operations.map Operation.token)).spelled := by
  induction ps generalizing ws with
  | nil =>
    cases h
    rfl
  | cons p ps ih =>
    obtain _ | ⟨hw, hws⟩ := h
    obtain ⟨_, _, rfl⟩ := Permission.renders_grant hw
    rw [spelledAll, ih hws, List.map_cons]
    rfl

/-- All mappings of a request spell the same if its permissions were checked. -/
theorem spelled_eq_of_gives_requestToDict {r : Request} {ps : List Permission} {u u' : State}
    {d d' : Value} (hcontent : ((r.value.map CredentialValue.content).getD .null).isTextDocument)
    (hps : r.permissions.map Grant.toValue = ps.map Permission.toValue)
    (h : (requestToDict r.toValue).Gives s d t) (h' : (requestToDict r.toValue).Gives u d' u') :
    d.spelled = d'.spelled := by
  have hdocument := isDocument_of_isTextDocument hcontent
  obtain ⟨_, _, value, permissions, hplain, hvalue, hforall, rfl⟩ :=
    eq_of_gives_requestToDict hdocument h
  obtain ⟨_, _, value', permissions', hplain', hvalue', hforall', rfl⟩ :=
    eq_of_gives_requestToDict hdocument h'
  rw [Permission.eq_map_grant hps] at hforall hforall'
  refine spelled_requestDict ?_ ((spelledAll_of_forall₂ hforall).trans
    (spelledAll_of_forall₂ hforall').symm)
  rw [← spelled_document hplain, ← spelled_document hplain', hvalue, hvalue']

end Payload

namespace RequestBuilder

open Making

variable {turns : List Turn} {before after : List Event} {e : Event}

/-- **The text and the mapping of a request agree.** Whatever the indentation, the text of a built
request is a document of the standard. A reader makes of it exactly what the mapping of the request
spells: the same members in the same order, and the same leaves. The indentation does not change the
document that is read, and if the permissions of the request were built too, then no time is better
than another to make the mapping. -/
theorem read?_toJson_of_run (h : run turns = before ++ e :: after) {r : Request}
    (hr : e.answer = .built r) (hgiven : (given before).isTextDocument) {s t : State}
    {indent : Value} {text : String}
    (htext : (Payload.requestToJson r.toValue indent).Gives s text t) :
    ∃ j, Json.read? text = some j ∧
      (∃ d u, (Payload.requestToDict r.toValue).Gives s d u ∧ j.toValue = d.spelled) ∧
      (∀ indent' text' u, (Payload.requestToJson r.toValue indent').Gives s text' u →
        Json.read? text' = some j) ∧
      ∀ ps : List Permission, r.permissions.map Grant.toValue = ps.map Permission.toValue →
        ∀ s' d u, (Payload.requestToDict r.toValue).Gives s' d u → j.toValue = d.spelled := by
  have hdocument := document_of_built h hr (Value.isDocument_of_isTextDocument hgiven)
  have hcontent := Value.isTextDocument_of_document_eq hdocument hgiven
  obtain ⟨j, hread, ⟨d, u, hd, hspelled⟩, hindent⟩ :=
    Payload.read?_of_gives_requestToJson hcontent htext
  refine ⟨j, hread, ⟨d, u, hd, hspelled⟩, hindent, fun ps hps s' d' u' hd' => ?_⟩
  exact hspelled.trans (Payload.spelled_eq_of_gives_requestToDict hcontent hps hd hd')

/-- A document with a quote and a control character in its texts, a large number and empty parts. -/
def textDocument : Value :=
  .view [(.text "a\"\n", .list [0] [.int 1000000000000000000000000000000, .tuple [], .map [1] []]),
    (.text "\u0001é\\", .map [2] [(.text "", .null), (.text "b", .bool false)])]

/-- The text of a request with the document and one permission is read as the mapping. -/
theorem read?_toJson_of_run_of_textDocument :
    ∃ before e r text t, run [
        ⟨.call (.jsonValue textDocument), ⟨3, []⟩⟩,
        ⟨.call
          (.additionalPermission (Permission.toValue ⟨some ⟨.app, .plain "a", none⟩, [.read]⟩)),
          ⟨7, []⟩⟩,
        ⟨.build, ⟨7, []⟩⟩] = before ++ e :: [] ∧
      e.answer = .built r ∧ (Payload.requestToJson r.toValue (.int 2)).Gives ⟨7, []⟩ text t ∧
      ∃ j d u, Json.read? text = some j ∧ (Payload.requestToDict r.toValue).Gives ⟨7, []⟩ d u ∧
        j.toValue = d.spelled := by
  have key (turns : List Turn) (h : ∃ before e r text t, run turns = before ++ e :: [] ∧
      e.answer = .built r ∧ (given before).isTextDocument ∧
      (Payload.requestToJson r.toValue (.int 2)).Gives ⟨7, []⟩ text t) :
      ∃ before e r text t, run turns = before ++ e :: [] ∧ e.answer = .built r ∧
        (Payload.requestToJson r.toValue (.int 2)).Gives ⟨7, []⟩ text t ∧
        ∃ j d u, Json.read? text = some j ∧ (Payload.requestToDict r.toValue).Gives ⟨7, []⟩ d u ∧
          j.toValue = d.spelled := by
    obtain ⟨before, e, r, text, t, hrun, hr, hgiven, htext⟩ := h
    obtain ⟨j, hread, ⟨d, u, hd, hspelled⟩, -⟩ := read?_toJson_of_run hrun hr hgiven htext
    exact ⟨before, e, r, text, t, hrun, hr, htext, j, d, u, hread, hd, hspelled⟩
  exact key _ ⟨[_, _], _, _, _, _, rfl, rfl, rfl, rfl⟩

end RequestBuilder

end CredentialWrites
