import CredentialWrites.Proofs.Json.Decimal
import CredentialWrites.Proofs.Payload.Text
import CredentialWrites.Proofs.Value.Later
import CredentialWrites.Proofs.Value.Shown

/-!
# Names of members

Every mapping, record and model inside a value becomes an object, which has one member for each key
or field, in their order. No key is left out or put in the place of another, and the name of a
member is told by its key alone. Whether an object has two members of one name is therefore told by
the names that the keys of the value become. Freezing and thawing change none of them.

* `Json.names` : the names of the members of every object of a document.
* `Wire.namesOf` : the names that the keys and fields of a value become.
* `Wire.isNamed_of_gives_document` : a document has members of exactly these names.
* `Wire.namesOf_of_gives_freeze`, `Wire.namesOf_of_gives_thaw` : the names of copies.
* `Wire.nodup_of_isTextDocument` : documents of texts, in which all names of a mapping differ.
-/

namespace CredentialWrites

/-! ### Documents -/

namespace Json

mutual

/-- The names of the members of every object of a document, those of an object before those inside
it. -/
def names : Json → List (List String)
  | array items => itemNames items
  | object members => members.map Prod.fst :: memberNames members
  | _ => []

/-- `names` for every item. -/
def itemNames : List Json → List (List String)
  | [] => []
  | item :: rest => names item ++ itemNames rest

/-- `names` for the value of every member. -/
def memberNames : List (String × Json) → List (List String)
  | [] => []
  | (_, value) :: rest => names value ++ memberNames rest

end

/-- The document can be read back, and the members of its objects have these names. -/
def IsNamed (j : Json) (names : List (List String)) : Prop :=
  j.Standard ∧ j.names = names

/-- Members with these names can be read back, as can the objects in them, whose members have names
of their own. -/
def MembersNamed (ms : List (String × Json)) (own : List String)
    (inner : List (List String)) : Prop :=
  MembersStandard ms ∧ ms.map Prod.fst = own ∧ memberNames ms = inner

variable {j : Json} {js : List Json} {ms : List (String × Json)} {name : String} {own : List String}
  {names inner : List (List String)}

theorem MembersNamed.nil : MembersNamed [] [] [] :=
  ⟨trivial, rfl, rfl⟩

theorem MembersNamed.cons (h : j.IsNamed names) (hs : MembersNamed ms own inner) :
    MembersNamed ((name, j) :: ms) (name :: own) (names ++ inner) :=
  ⟨⟨h.1, hs.1⟩, by rw [List.map_cons, hs.2.1], by rw [memberNames, h.2, hs.2.2]⟩

theorem MembersNamed.object (h : MembersNamed ms own inner) : (object ms).IsNamed (own :: inner) :=
  ⟨by rw [Standard]; exact h.1, by rw [Json.names, h.2.1, h.2.2]⟩

/-- A number is written as one that can be read back, or as null. -/
theorem isNamed_ofDouble (x : Double) : (Wire.ofDouble x).IsNamed [] := by
  cases hx : x.magnitude with
  | infinite =>
    rw [Wire.ofDouble, hx]
    exact ⟨trivial, rfl⟩
  | finite m e =>
    rw [Wire.ofDouble, hx]
    exact ⟨DecimalLayout.number?_write .wire hx, rfl⟩

end Json

namespace Wire

open Making Value
open Json (IsNamed MembersNamed)

/-! ### Names of a value -/

/-- The name that a key becomes, the empty one if it becomes none. -/
def keyName (k : Value) : String :=
  (key k).toOption.getD ""

mutual

/-- The names that the keys of every mapping inside a value become, and those of the fields of every
record and model, where a shape is expected of the value. -/
def namesOf (shape : FieldShape) : Value → List (List String)
  | .tuple items => namesOfAll .any items
  | .frozenSet items => namesOfAll .any items
  | .list _ items => namesOfAll shape.ofItems items
  | .set _ items => namesOfAll .any items
  | .map _ es => es.map (fun e => keyName e.1) :: namesOfEntries es
  | .view es => es.map (fun e => keyName e.1) :: namesOfEntries es
  | .member _ => if shape = .permission then [[]] else []
  | .record kind fields =>
    if shape = .permission then namesOfGrant kind fields
    else kind.fieldNames.take fields.length :: namesOfFields kind.fieldNames fields
  | .fault _ _ _ attrs =>
    (fieldsOf .permissionPayload attrs).map Prod.fst :: namesOfAttrs .permissionPayload attrs
  | .object kind _ attrs =>
    if shape = .permission then
      (fieldsOf .permissionPayload attrs).map Prod.fst :: namesOfAttrs .permissionPayload attrs
    else (fieldsOf kind attrs).map Prod.fst :: namesOfAttrs kind attrs
  | _ => []

/-- `namesOf` for every value of a list. -/
def namesOfAll (shape : FieldShape) : List Value → List (List String)
  | [] => []
  | v :: vs => namesOf shape v ++ namesOfAll shape vs

/-- `namesOf` for every value of a mapping. -/
def namesOfEntries : List (Value × Value) → List (List String)
  | [] => []
  | (_, v) :: es => namesOf .any v ++ namesOfEntries es

/-- `namesOf` for the fields of a record that have a name. -/
def namesOfFields : List String → List Value → List (List String)
  | _ :: names, v :: vs => namesOf .any v ++ namesOfFields names vs
  | _, _ => []

/-- `namesOf` for the attributes that are fields of the kind. -/
def namesOfAttrs (kind : ObjectKind) : List (String × Value) → List (List String)
  | [] => []
  | (name, v) :: attrs =>
    if kind.fieldNames.contains name then namesOf (.ofField kind name) v ++ namesOfAttrs kind attrs
    else namesOfAttrs kind attrs

/-- The names of the fields of a record that stands for a permission, and `namesOf` for the
fields. -/
def namesOfGrant (kind : RecordKind) : List Value → List (List String)
  | actor :: operations :: _ =>
    if kind = .permission then
      ["actor", "operations"] :: (namesOf .optionalText actor ++ namesOf .texts operations)
    else [[]]
  | _ => [[]]

end

theorem namesOfAttrs_cons {kind : ObjectKind} {name : String} {v : Value}
    {attrs : List (String × Value)} (h : kind.fieldNames.contains name) :
    namesOfAttrs kind ((name, v) :: attrs) =
      namesOf (.ofField kind name) v ++ namesOfAttrs kind attrs := by
  rw [namesOfAttrs, if_pos h]

mutual

/-- Nothing is taken from a stream when the value is written. -/
def isStreamless : Value → Bool
  | .stream _ _ => false
  | .tuple items => areStreamless items
  | .frozenSet items => areStreamless items
  | .record _ fields => areStreamless fields
  | .list _ items => areStreamless items
  | .set _ items => areStreamless items
  | .view es => areStreamlessEntries es
  | .map _ es => areStreamlessEntries es
  | .fault _ _ _ attrs => areStreamlessAttrs attrs
  | .object _ _ attrs => areStreamlessAttrs attrs
  | _ => true

/-- `isStreamless` for every value of a list. -/
def areStreamless : List Value → Bool
  | [] => true
  | v :: vs => isStreamless v && areStreamless vs

/-- `isStreamless` for every value of a mapping. -/
def areStreamlessEntries : List (Value × Value) → Bool
  | [] => true
  | (_, v) :: es => isStreamless v && areStreamlessEntries es

/-- `isStreamless` for every attribute. -/
def areStreamlessAttrs : List (String × Value) → Bool
  | [] => true
  | (_, v) :: attrs => isStreamless v && areStreamlessAttrs attrs

end

mutual

/-- What can be copied has no stream in it. -/
theorem isStreamless_of_uncopyable? : ∀ {v : Value}, v.uncopyable? = none → isStreamless v
  | .tuple items, h | .frozenSet items, h | .record _ items, h | .list _ items, h
    | .set _ items, h => by
    rw [uncopyable?] at h
    rw [isStreamless]
    exact areStreamless_of_uncopyableAmong? h
  | .map _ es, h => by
    rw [uncopyable?] at h
    rw [isStreamless]
    exact areStreamlessEntries_of_uncopyableEntry? h
  | .fault _ _ args attrs, h => by
    rw [uncopyable?] at h
    rw [isStreamless]
    split at h
    · cases h
    · exact areStreamlessAttrs_of_uncopyableAttr? h
  | .object _ _ attrs, h => by
    rw [uncopyable?] at h
    rw [isStreamless]
    exact areStreamlessAttrs_of_uncopyableAttr? h
  | .view _, h | .stream _ _, h => by cases h
  | .null, _ | .bool _, _ | .int _, _ | .float _, _ | .nan _, _ | .text _, _
  | .bytes _, _ | .member _, _ | .buffer _ _, _ => rfl

theorem areStreamless_of_uncopyableAmong? : ∀ {vs : List Value}, uncopyableAmong? vs = none →
    areStreamless vs
  | [], _ => rfl
  | v :: vs, h => by
    rw [uncopyableAmong?] at h
    split at h
    · cases h
    · rename_i hv
      rw [areStreamless, isStreamless_of_uncopyable? hv, areStreamless_of_uncopyableAmong? h]
      rfl

theorem areStreamlessEntries_of_uncopyableEntry? : ∀ {es : List (Value × Value)},
    uncopyableEntry? es = none → areStreamlessEntries es
  | [], _ => rfl
  | (k, v) :: es, h => by
    unfold uncopyableEntry? at h
    split at h
    · cases h
    · rename_i hv
      split at h
      · cases h
      · rw [areStreamlessEntries, isStreamless_of_uncopyable? hv,
          areStreamlessEntries_of_uncopyableEntry? h]
        rfl

theorem areStreamlessAttrs_of_uncopyableAttr? : ∀ {attrs : List (String × Value)},
    uncopyableAttr? attrs = none → areStreamlessAttrs attrs
  | [], _ => rfl
  | (_, v) :: attrs, h => by
    rw [uncopyableAttr?] at h
    split at h
    · cases h
    · rename_i hv
      rw [areStreamlessAttrs, isStreamless_of_uncopyable? hv,
        areStreamlessAttrs_of_uncopyableAttr? h]
      rfl

end

/-! ### Names of a document -/

variable {shape : FieldShape} {level : Nat} {s t : State} {v : Value} {vs : List Value}
  {es : List (Value × Value)}

/-- Documents of values one by one have the names of all of them. -/
theorem isNamed_array {js : List Json}
    (h : List.Forall₂ (fun v j => Json.IsNamed j (namesOf shape v)) vs js) :
    (Json.array js).IsNamed (namesOfAll shape vs) := by
  have hitems : Json.ItemsStandard js ∧ Json.itemNames js = namesOfAll shape vs := by
    induction h with
    | nil => exact ⟨trivial, rfl⟩
    | cons h _ ih => exact ⟨⟨h.1, ih.1⟩, by rw [Json.itemNames, h.2, ih.2, namesOfAll]⟩
  exact ⟨by rw [Json.Standard]; exact hitems.1, by rw [Json.names, hitems.2]⟩

/-- Under the names of fields there are as many members as there are fields with a name. -/
theorem membersNamed_zip (names : List String) {js : List Json}
    (h : List.Forall₂ (fun v j => Json.IsNamed j (namesOf .any v)) vs js) :
    MembersNamed (names.zip js) (names.take vs.length) (namesOfFields names vs) := by
  induction names generalizing vs js with
  | nil =>
    rw [List.zip_nil_left, List.take_nil, namesOfFields]
    · exact .nil
    · nofun
  | cons name names ih =>
    cases h with
    | nil => exact .nil
    | cons h hs => exact .cons h (ih hs)

theorem keyName_of_gives_accept {k : Value} {name : String} (h : (accept (key k)).Gives s name t) :
    keyName k = name := by
  cases hkey : key k with
  | ok other =>
    rw [hkey] at h
    obtain ⟨rfl, -⟩ := gives_pure.1 h
    rw [keyName, hkey]
    rfl
  | error cause =>
    rw [hkey] at h
    exact absurd h not_gives_fail

mutual

/-- The document of a value can be read back, and the members of its objects have the names of the
value. -/
theorem isNamed_of_gives_document :
    ∀ {v : Value} {shape : FieldShape} {level : Nat} {s t : State} {j : Json}, isStreamless v →
    (document shape level v).Gives s j t → j.IsNamed (namesOf shape v)
  | .tuple items, shape, level, s, t, j, hv, h | .frozenSet items, shape, level, s, t, j, hv, h
  | .set _ items, shape, level, s, t, j, hv, h | .list _ items, shape, level, s, t, j, hv, h => by
    simp only [document, gives_unless, gives_bind, gives_pure] at h
    obtain ⟨-, js, _, hjs, rfl, -⟩ := h
    exact isNamed_array (isNamed_of_gives_documents hv hjs)
  | .map _ es, shape, level, s, t, j, hv, h => by
    simp only [document, gives_unless, gives_bind, gives_pure] at h
    obtain ⟨-, ms, _, hms, rfl, -⟩ := h
    exact (membersNamed_of_gives_members hv hms).object
  | .record kind fields, shape, level, s, t, j, hv, h => by
    rw [document, gives_unless] at h
    rw [namesOf]
    obtain ⟨-, h⟩ := h
    -- where a permission is expected, a record is written as one or as nothing
    split at h
    · rw [if_pos ‹_›]
      simp only [gives_bind, gives_pure] at h
      obtain ⟨ms, _, hms, rfl, -⟩ := h
      exact isNamed_of_gives_grantMembers hv hms
    · rw [if_neg ‹_›]
      simp only [gives_bind, gives_pure] at h
      obtain ⟨js, _, hjs, rfl, -⟩ := h
      exact (membersNamed_zip kind.fieldNames (isNamed_of_gives_documents hv hjs)).object
  | .fault _ _ _ attrs, shape, level, s, t, j, hv, h => by
    simp only [document, gives_unless, gives_provided, gives_bind, gives_pure] at h
    obtain ⟨-, -, ms, _, hms, rfl, -⟩ := h
    exact (membersNamed_of_gives_fieldMembers hv hms).object
  | .object kind _ attrs, shape, level, s, t, j, hv, h => by
    rw [document, gives_unless] at h
    rw [namesOf]
    obtain ⟨-, h⟩ := h
    split at h
    · rw [if_pos ‹_›]
      simp only [gives_bind, gives_pure] at h
      obtain ⟨ms, _, hms, rfl, -⟩ := h
      exact (membersNamed_of_gives_fieldMembers hv hms).object
    · rw [if_neg ‹_›]
      simp only [gives_provided, gives_bind, gives_pure] at h
      obtain ⟨-, ms, _, hms, rfl, -⟩ := h
      exact (membersNamed_of_gives_fieldMembers hv hms).object
  | .member m, shape, level, s, t, j, _, h => by
    rw [document, gives_unless, ofMember] at h
    rw [namesOf]
    obtain ⟨-, h⟩ := h
    split at h
    · rw [if_pos ‹_›]
      obtain ⟨rfl, -⟩ := gives_pure.1 h
      exact MembersNamed.nil.object
    · rw [if_neg ‹_›]
      simp only [gives_unless, gives_pure] at h
      obtain ⟨-, rfl, -⟩ := h
      exact ⟨trivial, rfl⟩
  | .float x, shape, level, s, t, j, _, h => by
    simp only [document, gives_unless, gives_pure] at h
    obtain ⟨-, rfl, -⟩ := h
    exact Json.isNamed_ofDouble x
  | .bytes _, shape, level, s, t, j, _, h | .buffer _ _, shape, level, s, t, j, _, h => by
    simp only [document, gives_unless, gives_bind, gives_pure] at h
    obtain ⟨-, x, _, -, rfl, -⟩ := h
    exact ⟨trivial, rfl⟩
  | .null, shape, level, s, t, j, _, h | .bool _, shape, level, s, t, j, _, h
  | .int _, shape, level, s, t, j, _, h | .text _, shape, level, s, t, j, _, h
  | .nan _, shape, level, s, t, j, _, h => by
    simp only [document, gives_unless, gives_pure] at h
    obtain ⟨-, rfl, -⟩ := h
    exact ⟨trivial, rfl⟩
  -- views have been thawed before, and a stream cannot be copied
  | .view _, shape, level, s, t, j, _, h => by
    rw [document, gives_unless] at h
    exact absurd h.2 not_gives_fail
  | .stream _ _, _, _, _, _, _, hv, _ => by cases hv

theorem isNamed_of_gives_documents :
    ∀ {vs : List Value} {shape : FieldShape} {level : Nat} {s t : State} {js : List Json},
    areStreamless vs → (documents shape level vs).Gives s js t →
    List.Forall₂ (fun v j => Json.IsNamed j (namesOf shape v)) vs js
  | [], shape, level, s, t, js, _, h => by
    rw [documents] at h
    obtain ⟨rfl, -⟩ := gives_pure.1 h
    exact .nil
  | v :: vs, shape, level, s, t, js, hv, h => by
    rw [areStreamless, Bool.and_eq_true] at hv
    simp only [documents, gives_bind, gives_pure] at h
    obtain ⟨j, _, hj, js, _, hjs, rfl, -⟩ := h
    exact .cons (isNamed_of_gives_document hv.1 hj) (isNamed_of_gives_documents hv.2 hjs)

theorem membersNamed_of_gives_members : ∀ {es : List (Value × Value)} {level : Nat} {s t : State}
    {ms : List (String × Json)}, areStreamlessEntries es → (members level es).Gives s ms t →
    MembersNamed ms (es.map fun e => keyName e.1) (namesOfEntries es)
  | [], level, s, t, ms, _, h => by
    rw [members] at h
    obtain ⟨rfl, -⟩ := gives_pure.1 h
    exact .nil
  | (k, v) :: es, level, s, t, ms, hv, h => by
    rw [areStreamlessEntries, Bool.and_eq_true] at hv
    simp only [members, gives_bind, gives_pure] at h
    obtain ⟨name, _, hname, j, _, hj, ms, _, hms, rfl, -⟩ := h
    rw [List.map_cons, keyName_of_gives_accept hname]
    exact .cons (isNamed_of_gives_document hv.1 hj) (membersNamed_of_gives_members hv.2 hms)

theorem membersNamed_of_gives_fieldMembers : ∀ {attrs : List (String × Value)} {kind : ObjectKind}
    {level : Nat} {s t : State} {ms : List (String × Json)}, areStreamlessAttrs attrs →
    (fieldMembers kind level attrs).Gives s ms t →
    MembersNamed ms ((fieldsOf kind attrs).map Prod.fst) (namesOfAttrs kind attrs)
  | [], kind, level, s, t, ms, _, h => by
    rw [fieldMembers] at h
    obtain ⟨rfl, -⟩ := gives_pure.1 h
    exact .nil
  | (name, v) :: attrs, kind, level, s, t, ms, hv, h => by
    rw [areStreamlessAttrs, Bool.and_eq_true] at hv
    rw [fieldMembers] at h
    split at h
    · rename_i hname
      have hfields : fieldsOf kind ((name, v) :: attrs) = (name, v) :: fieldsOf kind attrs :=
        List.filter_cons_of_pos hname
      rw [hfields, namesOfAttrs_cons hname]
      simp only [gives_bind, gives_pure] at h
      obtain ⟨j, _, hj, ms, _, hms, rfl, -⟩ := h
      exact .cons (isNamed_of_gives_document hv.1 hj) (membersNamed_of_gives_fieldMembers hv.2 hms)
    · rename_i hname
      have hfields : fieldsOf kind ((name, v) :: attrs) = fieldsOf kind attrs :=
        List.filter_cons_of_neg hname
      rw [hfields, namesOfAttrs, if_neg hname]
      exact membersNamed_of_gives_fieldMembers hv.2 h

theorem isNamed_of_gives_grantMembers :
    ∀ {fields : List Value} {kind : RecordKind} {level : Nat} {s t : State}
    {ms : List (String × Json)}, areStreamless fields →
      (grantMembers level kind fields).Gives s ms t →
    (Json.object ms).IsNamed (namesOfGrant kind fields)
  | actor :: operations :: _, kind, level, s, t, ms, hv, h => by
    simp only [areStreamless, Bool.and_eq_true] at hv
    rw [grantMembers] at h
    rw [namesOfGrant]
    split at h
    · rw [if_pos ‹_›]
      simp only [gives_bind, gives_pure] at h
      obtain ⟨j, _, hj, j', _, hj', rfl, -⟩ := h
      have hactor := isNamed_of_gives_document hv.1 hj
      have hoperations := isNamed_of_gives_document hv.2.1 hj'
      rw [← List.append_nil (namesOf .texts operations)]
      exact (MembersNamed.cons hactor (MembersNamed.cons hoperations .nil)).object
    · rw [if_neg ‹_›]
      obtain ⟨rfl, -⟩ := gives_pure.1 h
      exact MembersNamed.nil.object
  | [], kind, level, s, t, ms, _, h | [_], kind, level, s, t, ms, _, h => by
    obtain ⟨rfl, -⟩ := gives_pure.1 h
    exact MembersNamed.nil.object

end

/-! ### Names of copies -/

mutual

/-- A renamed key becomes the same name. -/
theorem key_relabel (f : Cell → Cell) : ∀ k : Value, key (k.relabel f) = key k
  | .tuple items => by simp only [relabel, key, keys_relabelAll f items]
  | .record kind fields => by
    have hplain := plain_relabel f (.record kind fields)
    rw [relabel] at hplain
    simp only [relabel, key, keyOfRecord, hplain]
  | .null | .bool _ | .int _ | .float _ | .nan _ | .text _ | .bytes _ | .member _
  | .frozenSet _ | .view _
  | .list _ _ | .set _ _ | .map _ _ | .buffer _ _ | .stream _ _ | .fault _ _ _ _
  | .object _ _ _ => by
    simp only [relabel, key, kindName]

theorem keys_relabelAll (f : Cell → Cell) : ∀ ks : List Value, keys (relabelAll f ks) = keys ks
  | [] => rfl
  | k :: ks => by simp only [relabelAll, keys, key_relabel f k, keys_relabelAll f ks]

end

theorem keyNames_relabelEntries (f : Cell → Cell) (es : List (Value × Value)) :
    (relabelEntries f es).map (fun e => keyName e.1) = es.map fun e => keyName e.1 := by
  rw [relabelEntries_eq_map, List.map_map]
  refine List.map_congr_left fun e _ => ?_
  rw [Function.comp, keyName, keyName, key_relabel]

theorem names_fieldsOf_relabelAttrs (f : Cell → Cell) (kind : ObjectKind)
    (attrs : List (String × Value)) :
    (fieldsOf kind (relabelAttrs f attrs)).map Prod.fst = (fieldsOf kind attrs).map Prod.fst := by
  rw [fieldsOf_relabelAttrs, relabelAttrs_eq_map, List.map_map]
  rfl

mutual

/-- A renamed value has the same names. -/
theorem namesOf_relabel (f : Cell → Cell) : ∀ (shape : FieldShape) (v : Value),
    namesOf shape (v.relabel f) = namesOf shape v
  | shape, .tuple items | shape, .frozenSet items | shape, .list _ items | shape, .set _ items => by
    simp only [relabel, namesOf, namesOfAll_relabelAll f _ items]
  | shape, .map _ es | shape, .view es => by
    simp only [relabel, namesOf, keyNames_relabelEntries, namesOfEntries_relabelEntries f es]
  | shape, .record kind fields => by
    simp only [relabel, namesOf, namesOfGrant_relabelAll f kind fields, relabelAll_length,
      namesOfFields_relabelAll f _ fields]
  | shape, .fault _ _ _ attrs => by
    simp only [relabel, namesOf, names_fieldsOf_relabelAttrs, namesOfAttrs_relabelAttrs f _ attrs]
  | shape, .object kind _ attrs => by
    simp only [relabel, namesOf, names_fieldsOf_relabelAttrs, namesOfAttrs_relabelAttrs f _ attrs]
  | shape, .null | shape, .bool _ | shape, .int _ | shape, .float _ | shape, .nan _ | shape, .text _
  | shape, .bytes _ | shape, .member _ | shape, .buffer _ _ | shape, .stream _ _ => rfl

theorem namesOfAll_relabelAll (f : Cell → Cell) : ∀ (shape : FieldShape) (vs : List Value),
    namesOfAll shape (relabelAll f vs) = namesOfAll shape vs
  | _, [] => rfl
  | shape, v :: vs => by
    simp only [relabelAll, namesOfAll, namesOf_relabel f _ v, namesOfAll_relabelAll f _ vs]

theorem namesOfEntries_relabelEntries (f : Cell → Cell) : ∀ es : List (Value × Value),
    namesOfEntries (relabelEntries f es) = namesOfEntries es
  | [] => rfl
  | (_, v) :: es => by
    simp only [relabelEntries, namesOfEntries, namesOf_relabel f _ v,
      namesOfEntries_relabelEntries f es]

theorem namesOfFields_relabelAll (f : Cell → Cell) : ∀ (names : List String) (vs : List Value),
    namesOfFields names (relabelAll f vs) = namesOfFields names vs
  | [], vs => by cases vs <;> simp only [relabelAll, namesOfFields]
  | _ :: _, [] => rfl
  | _ :: names, v :: vs => by
    simp only [relabelAll, namesOfFields, namesOf_relabel f _ v,
      namesOfFields_relabelAll f names vs]

theorem namesOfAttrs_relabelAttrs (f : Cell → Cell) :
    ∀ (kind : ObjectKind) (attrs : List (String × Value)),
    namesOfAttrs kind (relabelAttrs f attrs) = namesOfAttrs kind attrs
  | _, [] => rfl
  | kind, (name, v) :: attrs => by
    simp only [relabelAttrs, namesOfAttrs, namesOf_relabel f _ v,
      namesOfAttrs_relabelAttrs f kind attrs]

theorem namesOfGrant_relabelAll (f : Cell → Cell) : ∀ (kind : RecordKind) (fields : List Value),
    namesOfGrant kind (relabelAll f fields) = namesOfGrant kind fields
  | kind, actor :: operations :: _ => by
    simp only [relabelAll, namesOfGrant, namesOf_relabel f _ actor, namesOf_relabel f _ operations]
  | _, [] | _, [_] => rfl

end

/-- A copy has the names of what it was copied from, and no stream in it. -/
theorem namesOf_of_gives_copy {v w : Value} (h : (copy v).Gives s w t) :
    namesOf .any w = namesOf .any v ∧ isStreamless w := by
  unfold copy at h
  split at h
  · exact absurd h not_gives_fail
  · simp only [gives_bind, gives_pure] at h
    obtain ⟨now, _, -, rfl, -⟩ := h
    -- the copy can be copied once more, as what it was copied from could
    have huncopyable : (v.relabel (now :: ·)).uncopyable? = none := by
      rw [uncopyable?_relabel]
      assumption
    exact ⟨namesOf_relabel _ _ v, isStreamless_of_uncopyable? huncopyable⟩

mutual

/-- A frozen value has the names of the value. -/
theorem namesOf_of_gives_freeze : ∀ {v w : Value} {s t : State}, (freeze v).Gives s w t →
    namesOf .any w = namesOf .any v
  | .view es, w, s, t, h | .map _ es, w, s, t, h => by
    -- keys are kept, so that only the values are looked into
    simp only [freeze, gives_bind, gives_pure] at h
    obtain ⟨es', _, hes, rfl, -⟩ := h
    obtain ⟨hkeys, hnames⟩ := namesOfEntries_of_gives_freezeEntries hes
    rw [namesOf, namesOf, hkeys, hnames]
  | .list _ items, w, s, t, h | .tuple items, w, s, t, h | .set _ items, w, s, t, h
  | .frozenSet items, w, s, t, h => by
    simp only [freeze, gives_bind, gives_pure] at h
    obtain ⟨items', _, hitems, rfl, -⟩ := h
    exact namesOfAll_of_gives_freezeAll hitems
  | .null, w, s, t, h | .bool _, w, s, t, h | .int _, w, s, t, h | .float _, w, s, t, h
  | .nan _, w, s, t, h | .text _, w, s, t, h | .bytes _, w, s, t, h | .member _, w, s, t, h => by
    rw [freeze_of_isScalar rfl] at h
    exact (namesOf_of_gives_copy h).1
  | .record _ _, w, s, t, h | .fault _ _ _ _, w, s, t, h | .object _ _ _, w, s, t, h =>
    (namesOf_of_gives_copy h).1
  | .buffer c bs, w, s, t, h => (namesOf_of_gives_copy (v := .buffer c bs) h).1
  | .stream c items, w, s, t, h => (namesOf_of_gives_copy (v := .stream c items) h).1

theorem namesOfAll_of_gives_freezeAll : ∀ {vs ws : List Value} {s t : State},
    (freezeAll vs).Gives s ws t → namesOfAll .any ws = namesOfAll .any vs
  | [], ws, s, t, h => by
    simp only [freezeAll, gives_pure] at h
    rw [← h.1]
  | v :: vs, ws, s, t, h => by
    simp only [freezeAll, gives_bind, gives_pure] at h
    obtain ⟨w, _, hw, ws, _, hws, rfl, -⟩ := h
    rw [namesOfAll, namesOfAll, namesOf_of_gives_freeze hw, namesOfAll_of_gives_freezeAll hws]

theorem namesOfEntries_of_gives_freezeEntries : ∀ {es es' : List (Value × Value)} {s t : State},
    (freezeEntries es).Gives s es' t →
    es'.map (fun e => keyName e.1) = es.map (fun e => keyName e.1) ∧
      namesOfEntries es' = namesOfEntries es
  | [], es', s, t, h => by
    simp only [freezeEntries, gives_pure] at h
    rw [← h.1]
    exact ⟨rfl, rfl⟩
  | (k, v) :: es, es', s, t, h => by
    simp only [freezeEntries, gives_bind, gives_pure] at h
    obtain ⟨w, _, hw, es'', _, hes, rfl, -⟩ := h
    obtain ⟨hkeys, hnames⟩ := namesOfEntries_of_gives_freezeEntries hes
    rw [List.map_cons, List.map_cons, hkeys, namesOfEntries, namesOfEntries,
      namesOf_of_gives_freeze hw, hnames]
    exact ⟨rfl, rfl⟩

end

mutual

/-- A thawed value has the names of the value, and no stream in it. -/
theorem namesOf_of_gives_thaw : ∀ {v w : Value} {s t : State}, (thaw v).Gives s w t →
    namesOf .any w = namesOf .any v ∧ isStreamless w
  | .view es, w, s, t, h | .map _ es, w, s, t, h => by
    simp only [thaw, gives_bind] at h
    obtain ⟨es', _, hes, h⟩ := h
    obtain ⟨c, rfl⟩ := eq_of_gives_map h
    obtain ⟨hkeys, hnames, hstreamless⟩ := namesOfEntries_of_gives_thawEntries hes
    rw [namesOf, namesOf, hkeys, hnames]
    exact ⟨rfl, hstreamless⟩
  | .list _ items, w, s, t, h | .tuple items, w, s, t, h => by
    simp only [thaw, gives_bind] at h
    obtain ⟨items', _, hitems, h⟩ := h
    obtain ⟨c, rfl⟩ := eq_of_gives_list h
    exact namesOfAll_of_gives_thawAll hitems
  | .null, w, s, t, h | .bool _, w, s, t, h | .int _, w, s, t, h | .float _, w, s, t, h
  | .nan _, w, s, t, h | .text _, w, s, t, h | .bytes _, w, s, t, h | .member _, w, s, t, h => by
    rw [thaw_of_isScalar rfl] at h
    exact namesOf_of_gives_copy h
  | .frozenSet _, w, s, t, h | .set _ _, w, s, t, h | .record _ _, w, s, t, h
  | .fault _ _ _ _, w, s, t, h | .object _ _ _, w, s, t, h => namesOf_of_gives_copy h
  | .buffer c bs, w, s, t, h => namesOf_of_gives_copy (v := .buffer c bs) h
  | .stream c items, w, s, t, h => namesOf_of_gives_copy (v := .stream c items) h

theorem namesOfAll_of_gives_thawAll : ∀ {vs ws : List Value} {s t : State},
    (thawAll vs).Gives s ws t → namesOfAll .any ws = namesOfAll .any vs ∧ areStreamless ws
  | [], ws, s, t, h => by
    simp only [thawAll, gives_pure] at h
    rw [← h.1]
    exact ⟨rfl, rfl⟩
  | v :: vs, ws, s, t, h => by
    simp only [thawAll, gives_bind, gives_pure] at h
    obtain ⟨w, _, hw, ws, _, hws, rfl, -⟩ := h
    obtain ⟨hname, hstreamless⟩ := namesOf_of_gives_thaw hw
    obtain ⟨hnames, hstreamlessAll⟩ := namesOfAll_of_gives_thawAll hws
    rw [namesOfAll, namesOfAll, hname, hnames, areStreamless, hstreamless, hstreamlessAll]
    exact ⟨rfl, rfl⟩

theorem namesOfEntries_of_gives_thawEntries : ∀ {es es' : List (Value × Value)} {s t : State},
    (thawEntries es).Gives s es' t →
    es'.map (fun e => keyName e.1) = es.map (fun e => keyName e.1) ∧
      namesOfEntries es' = namesOfEntries es ∧ areStreamlessEntries es'
  | [], es', s, t, h => by
    simp only [thawEntries, gives_pure] at h
    rw [← h.1]
    exact ⟨rfl, rfl, rfl⟩
  | (k, v) :: es, es', s, t, h => by
    simp only [thawEntries, gives_bind, gives_pure] at h
    obtain ⟨w, _, hw, es'', _, hes, rfl, -⟩ := h
    obtain ⟨hname, hstreamless⟩ := namesOf_of_gives_thaw hw
    obtain ⟨hkeys, hnames, hstreamlessAll⟩ := namesOfEntries_of_gives_thawEntries hes
    rw [List.map_cons, List.map_cons, hkeys, namesOfEntries, namesOfEntries, hname, hnames,
      areStreamlessEntries, hstreamless, hstreamlessAll]
    exact ⟨rfl, rfl, rfl⟩

end

/-! ### Documents of texts -/

theorem keyName_of_text? {k : Value} {x : String} (h : k.text? = some x) : keyName k = x := by
  rw [keyName, key_of_text? h]
  rfl

/-- Texts that are different keys become different names. -/
theorem nodup_keyNames (hkeys : ∀ k ∈ es.map Prod.fst, k.text?.isSome)
    (h : noneAlike (es.map Prod.fst)) : (es.map fun e => keyName e.1).Nodup := by
  induction es with
  | nil => exact List.nodup_nil
  | cons e es ih =>
    rw [List.map_cons, List.forall_mem_cons] at hkeys
    rw [List.map_cons, noneAlike, Bool.and_eq_true, List.all_eq_true] at h
    rw [List.map_cons, List.nodup_cons]
    refine ⟨fun hmem => ?_, ih hkeys.2 h.2⟩
    -- two keys of one name are alike, which no two keys of a mapping are
    obtain ⟨d, hd, heq⟩ := List.mem_map.1 hmem
    have hkey : d.1 ∈ es.map Prod.fst := List.mem_map_of_mem hd
    obtain ⟨x, hx⟩ := Option.isSome_iff_exists.1 hkeys.1
    obtain ⟨y, hy⟩ := Option.isSome_iff_exists.1 (hkeys.2 d.1 hkey)
    rw [keyName_of_text? hx, keyName_of_text? hy] at heq
    have halike := h.1 d.1 hkey
    rw [alike_texts hy hx, heq, beq_self_eq_true] at halike
    cases halike

theorem text?_of_areTextEntries (h : areTextEntries es) :
    ∀ k ∈ es.map Prod.fst, k.text?.isSome := by
  induction es with
  | nil => simp
  | cons e es ih =>
    simp only [areTextEntries, Bool.and_eq_true] at h
    rw [List.map_cons, List.forall_mem_cons]
    exact ⟨h.1.1, ih h.2⟩

mutual

/-- No two keys of a mapping in a document of texts become the same name. -/
theorem nodup_of_isTextDocument :
    ∀ {v : Value}, v.isTextDocument → ∀ names ∈ namesOf .any v, names.Nodup
  | .view es, h | .map _ es, h => by
    rw [isTextDocument, Bool.and_eq_true] at h
    rw [namesOf, List.forall_mem_cons]
    exact ⟨nodup_keyNames (text?_of_areTextEntries h.2) h.1, nodup_of_areTextEntries h.2⟩
  | .list _ items, h | .tuple items, h => by
    rw [isTextDocument] at h
    exact nodup_of_areTextDocuments h
  | .null, _ | .bool _, _ | .int _, _ | .text _, _ | .member _, _ => by simp [namesOf]
  | .float _, h | .nan _, h | .bytes _, h | .frozenSet _, h | .record _ _, h | .set _ _, h
  | .buffer _ _, h | .stream _ _, h | .fault _ _ _ _, h | .object _ _ _, h => by cases h

theorem nodup_of_areTextDocuments : ∀ {vs : List Value}, areTextDocuments vs →
    ∀ names ∈ namesOfAll .any vs, names.Nodup
  | [], _ => by simp [namesOfAll]
  | v :: vs, h => by
    rw [areTextDocuments, Bool.and_eq_true] at h
    rw [namesOfAll, List.forall_mem_append]
    exact ⟨nodup_of_isTextDocument h.1, nodup_of_areTextDocuments h.2⟩

theorem nodup_of_areTextEntries : ∀ {es : List (Value × Value)}, areTextEntries es →
    ∀ names ∈ namesOfEntries es, names.Nodup
  | [], _ => by simp [namesOfEntries]
  | (_, v) :: es, h => by
    simp only [areTextEntries, Bool.and_eq_true] at h
    rw [namesOfEntries, List.forall_mem_append]
    exact ⟨nodup_of_isTextDocument h.1.2, nodup_of_areTextEntries h.2⟩

end

end Wire

end CredentialWrites
