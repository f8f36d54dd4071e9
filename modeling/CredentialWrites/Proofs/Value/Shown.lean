import CredentialWrites.Proofs.Value.Renaming

/-!
# Forms of renamed values

No form of a value shows the names of its objects: a copy is displayed as what it was copied from,
has its plain form, or none for the same reason.

* `Value.display_relabel` : the written form of a renamed value.
* `Value.plain_relabel` : its plain form.
-/

namespace CredentialWrites

namespace Value

/-! ### The written form -/

mutual

/-- A renamed value has the same written form. -/
theorem display_relabel (f : Cell → Cell) : ∀ v : Value, (v.relabel f).display = v.display
  | tuple items | frozenSet items | list _ items | set _ items | fault _ _ items _ => by
    simp only [relabel, display, displayAll_relabelAll f items]
  | view es | map _ es => by simp only [relabel, display, displayEntries_relabelEntries f es]
  | object kind _ attrs => by simp only [relabel, display, displayFields_relabelAttrs f kind attrs]
  | record .request fields => by simp only [relabel, display, displayRequest_relabelAll f fields]
  | record .actor fields | record .name fields | record .permission fields | record .password fields
  | record .json fields => by simp only [relabel, display, displayAll_relabelAll f fields]
  | null | bool _ | int _ | float _ | nan _ | text _ | bytes _ | member _ | buffer _ _
  | stream _ _ => by
    simp only [relabel, display]

theorem displayAll_relabelAll (f : Cell → Cell) :
    ∀ vs : List Value, displayAll (relabelAll f vs) = displayAll vs
  | [] => rfl
  | v :: vs => by simp only [relabelAll, displayAll, display_relabel f v,
      displayAll_relabelAll f vs]

theorem displayEntries_relabelEntries (f : Cell → Cell) :
    ∀ es : List (Value × Value), displayEntries (relabelEntries f es) = displayEntries es
  | [] => rfl
  | (k, v) :: es => by
    simp only [relabelEntries, displayEntries, display_relabel f k, display_relabel f v,
      displayEntries_relabelEntries f es]

theorem displayFields_relabelAttrs (f : Cell → Cell) (kind : ObjectKind) :
    ∀ attrs : List (String × Value),
      displayFields kind (relabelAttrs f attrs) = displayFields kind attrs
  | [] => rfl
  | (name, v) :: attrs => by
    simp only [relabelAttrs, displayFields, display_relabel f v,
      displayFields_relabelAttrs f kind attrs]

-- of the credential value of a request only the type and the content are shown, not the value
-- itself
theorem displayRequest_relabelAll (f : Cell → Cell) :
    ∀ fields : List Value, displayRequest (relabelAll f fields) = displayRequest fields
  | overwrite :: name :: value :: permissions :: _ => by
    simp only [relabelAll, displayRequest, display_relabel f overwrite, display_relabel f name,
      displayType_relabel f value, displayContent_relabel f value, display_relabel f permissions]
  | [] | [_] | [_, _] | [_, _, _] => by simp only [relabelAll, displayRequest]

theorem displayType_relabel (f : Cell → Cell) :
    ∀ v : Value, displayType (v.relabel f) = displayType v
  | record .request fields => by simp only [relabel, displayType,
    displayTypeInside_relabelAll f fields]
  | fault _ _ _ attrs | object _ _ attrs => by
    simp only [relabel, displayType, displayAttr_relabelAttrs f _ _ attrs]
  | record .actor _ | record .name _ | record .permission _ | record .password _ | record .json _
  | tuple _ | frozenSet _ | list _ _ | set _ _ | view _ | map _ _
  | null | bool _ | int _ | float _ | nan _ | text _ | bytes _ | member _ | buffer _ _
  | stream _ _ => by
    simp only [relabel, displayType, kindName]

theorem displayTypeInside_relabelAll (f : Cell → Cell) :
    ∀ fields : List Value, displayTypeInside (relabelAll f fields) = displayTypeInside fields
  | _ :: _ :: value :: _ => by simp only [relabelAll, displayTypeInside,
    displayType_relabel f value]
  | [] | [_] | [_, _] => by simp only [relabelAll, displayTypeInside]

theorem displayContent_relabel (f : Cell → Cell) :
    ∀ v : Value, displayContent (v.relabel f) = displayContent v
  | record .request fields => by
    simp only [relabel, displayContent, displayContentInside_relabelAll f fields]
  | record .password fields | record .json fields => by
    simp only [relabel, displayContent, displayFirst_relabelAll f fields]
  | fault _ _ _ attrs | object _ _ attrs => by
    simp only [relabel, displayContent, displayAttr_relabelAttrs f _ _ attrs]
  | record .actor _ | record .name _ | record .permission _
  | tuple _ | frozenSet _ | list _ _ | set _ _ | view _ | map _ _
  | null | bool _ | int _ | float _ | nan _ | text _ | bytes _ | member _ | buffer _ _
  | stream _ _ => by
    simp only [relabel, displayContent, kindName]

theorem displayContentInside_relabelAll (f : Cell → Cell) :
    ∀ fields : List Value, displayContentInside (relabelAll f fields) = displayContentInside fields
  | _ :: _ :: value :: _ => by simp only [relabelAll, displayContentInside,
    displayContent_relabel f value]
  | [] | [_] | [_, _] => by simp only [relabelAll, displayContentInside]

theorem displayFirst_relabelAll (f : Cell → Cell) :
    ∀ fields : List Value, displayFirst (relabelAll f fields) = displayFirst fields
  | v :: _ => by simp only [relabelAll, displayFirst, display_relabel f v]
  | [] => rfl

theorem displayAttr_relabelAttrs (f : Cell → Cell) (kind attr : String) :
    ∀ attrs : List (String × Value), displayAttr kind attr (relabelAttrs f attrs) =
      displayAttr kind attr attrs
  | [] => rfl
  | (name, v) :: attrs => by
    simp only [relabelAttrs, displayAttr, display_relabel f v,
      displayAttr_relabelAttrs f kind attr attrs]

end

/-! ### The plain form -/

theorem plainName_relabelAll (f : Cell → Cell) (fields : List Value) :
    plainName (relabelAll f fields) = plainName fields := by
  cases fields with
  | nil => rfl
  | cons v vs => rw [relabelAll, plainName, plainName, word?_relabel]

/-- The identity of an actor is told by the forms of its fields. -/
theorem plainActor_congr {type type' id id' zone zone' : Value} {rest rest' : List Value}
    (htype : type'.plainContent = type.plainContent) (hid : id'.plain = id.plain)
    (hzone : zone'.plain = zone.plain) (hnull : zone' = null ↔ zone = null) :
    plainActor (type' :: id' :: zone' :: rest') = plainActor (type :: id :: zone :: rest) := by
  rw [plainActor, plainActor, htype, hid]
  congr 1
  funext token
  -- only an actor without a zone is written without a slash
  by_cases h : zone = null
  · rw [hnull.2 h, h]
  · have h' : zone' ≠ null := fun heq => h (hnull.1 heq)
    split
    · contradiction
    · rw [hzone]

theorem plainContentInside_congr {overwrite overwrite' name name' value value' : Value}
    {rest rest' : List Value} (hvalue : value'.plainContent = value.plainContent)
    (hnull : value' = null ↔ value = null) :
    plainContentInside (overwrite' :: name' :: value' :: rest') =
      plainContentInside (overwrite :: name :: value :: rest) := by
  by_cases h : value = null
  · rw [hnull.2 h, h, plainContentInside, plainContentInside]
  · have h' : value' ≠ null := fun heq => h (hnull.1 heq)
    rw [plainContentInside, plainContentInside, hvalue]
    · exact h
    · exact h'

theorem relabel_eq_null_iff {f : Cell → Cell} {v : Value} : v.relabel f = null ↔ v = null := by
  cases v <;> simp [relabel]

mutual

/-- A renamed value has the same plain form. -/
theorem plain_relabel (f : Cell → Cell) : ∀ v : Value, (v.relabel f).plain = v.plain
  | tuple items | frozenSet items | list _ items | set _ items | record .permission items
  | record .password items | record .json items => by
    simp only [relabel, plain, display, displayAll_relabelAll f items]
  | view es | map _ es => by simp only [relabel, plain, display, displayEntries_relabelEntries f es]
  | record .name fields => by simp only [relabel, plain, plainName_relabelAll f fields]
  | record .actor fields => by simp only [relabel, plain, plainActor_relabelAll f fields]
  | record .request fields => by simp only [relabel, plain, display,
      displayRequest_relabelAll f fields]
  | fault c _ args _ => by simp only [relabel, plain, plainFault_relabelAll f c args]
  | object kind _ attrs => by simp only [relabel, plain, display,
      displayFields_relabelAttrs f kind attrs]
  | null | bool _ | int _ | float _ | nan _ | text _ | bytes _ | member _ | buffer _ _
  | stream _ _ => by
    simp only [relabel, plain, display]

theorem plainFault_relabelAll (f : Cell → Cell) (c : FaultClass) :
    ∀ args : List Value, plainFault c (relabelAll f args) = plainFault c args
  | [] => rfl
  | [v] => by
    cases c <;> simp only [relabelAll, plainFault, display_relabel f v, plain_relabel f v]
  | v :: w :: rest => by
    have hdisplay := displayAll_relabelAll f (v :: w :: rest)
    simp only [relabelAll] at hdisplay
    simp only [relabelAll, plainFault, hdisplay]

theorem plainActor_relabelAll (f : Cell → Cell) :
    ∀ fields : List Value, plainActor (relabelAll f fields) = plainActor fields
  | type :: id :: zone :: _ =>
    plainActor_congr (plainContent_relabel f type) (plain_relabel f id) (plain_relabel f zone)
      relabel_eq_null_iff
  | [] | [_] | [_, _] => by simp only [relabelAll, plainActor]

theorem plainContent_relabel (f : Cell → Cell) :
    ∀ v : Value, plainContent (v.relabel f) = plainContent v
  | record .request fields => by
    simp only [relabel, plainContent, plainContentInside_relabelAll f fields]
  | record .password fields | record .json fields => by
    simp only [relabel, plainContent, plainFirst_relabelAll f fields]
  | fault _ _ _ attrs | object _ _ attrs => by
    simp only [relabel, plainContent, plainAttr_relabelAttrs f _ _ attrs]
  | record .actor _ | record .name _ | record .permission _
  | tuple _ | frozenSet _ | list _ _ | set _ _ | view _ | map _ _
  | null | bool _ | int _ | float _ | nan _ | text _ | bytes _ | member _ | buffer _ _
  | stream _ _ => by
    simp only [relabel, plainContent, kindName]

theorem plainContentInside_relabelAll (f : Cell → Cell) :
    ∀ fields : List Value, plainContentInside (relabelAll f fields) = plainContentInside fields
  | _ :: _ :: value :: _ => plainContentInside_congr (plainContent_relabel f value)
    relabel_eq_null_iff
  | [] | [_] | [_, _] => by simp only [relabelAll, plainContentInside]

theorem plainFirst_relabelAll (f : Cell → Cell) :
    ∀ fields : List Value, plainFirst (relabelAll f fields) = plainFirst fields
  | v :: _ => by simp only [relabelAll, plainFirst, plain_relabel f v]
  | [] => rfl

theorem plainAttr_relabelAttrs (f : Cell → Cell) (kind attr : String) :
    ∀ attrs : List (String × Value),
      plainAttr kind attr (relabelAttrs f attrs) = plainAttr kind attr attrs
  | [] => rfl
  | (name, v) :: attrs => by
    simp only [relabelAttrs, plainAttr, plain_relabel f v, plainAttr_relabelAttrs f kind attr attrs]

end

end Value

end CredentialWrites
