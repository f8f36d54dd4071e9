import CredentialWrites.Proofs.Request.Scope

/-!
# Where objects belong

The objects of a session are divided into regions: those of documents, the lists in which builders
keep permissions, the builders themselves, and all others, which are common. Objects are set apart
from the common ones when they are made. A register may hold common objects only, or a builder, or
what a builder built. It goes on doing so when an object is replaced by one that belongs where the
other did, and when objects that are made later are set apart.

* `Division` : the region of every object.
* `Division.Building`, `Division.Built` : a builder and what it built, whose documents are set
  apart.
* `Division.Fits` : an object belongs where another did.
* `Division.Grows` : more objects are set apart as time passes.
* `Division.Places` : what registers of a role hold, and that they go on doing so.
-/

namespace CredentialWrites

open Making Value

/-- A part of the objects. -/
inductive Region where
  /-- What everyone may hold and change. -/
  | common
  /-- The documents of builders and of what they built. -/
  | document
  /-- The lists in which builders keep permissions. -/
  | grants
  | builder
deriving DecidableEq

/-- The region of every object. -/
abbrev Division := Cell → Region

/-- What a register is for. -/
inductive Role where
  | common | builder | built
deriving DecidableEq

namespace CredentialValue

/-- A credential value in which an object is replaced. -/
def replace (cell : Cell) (new : Value) : CredentialValue → CredentialValue
  | password w => password w
  | json es => json (replaceEntries cell new es)

theorem replace_toValue (cell : Cell) (new : Value) (o : Option CredentialValue) :
    Value.replace cell new ((o.map toValue).getD .null) =
      ((o.map (replace cell new)).map toValue).getD .null := by
  rcases o with _ | w | es
  · rfl
  · cases w <;> rfl
  · rfl

theorem replace_content (cell : Cell) (new : Value) (o : Option CredentialValue) :
    Value.replace cell new ((o.map content).getD .null) =
      ((o.map (replace cell new)).map content).getD .null := by
  rcases o with _ | w | es
  · rfl
  · cases w <;> rfl
  · rfl

end CredentialValue

namespace Grant

/-- A permission in which an object is replaced. -/
def replace (cell : Cell) (new : Value) (g : Grant) : Grant :=
  ⟨Value.replace cell new g.actor, Value.replace cell new g.operations⟩

theorem replaceAll_toValue (cell : Cell) (new : Value) (gs : List Grant) :
    replaceAll cell new (gs.map toValue) = (gs.map (replace cell new)).map toValue := by
  induction gs with
  | nil => rfl
  | cons g gs ih =>
    rw [List.map_cons, replaceAll, ih]
    rfl

end Grant

theorem CredentialName.replace_toValue (cell : Cell) (new : Value) (o : Option CredentialName) :
    Value.replace cell new ((o.map CredentialName.toValue).getD .null) =
      (o.map CredentialName.toValue).getD .null := by
  rcases o with _ | ⟨_ | _ | _⟩ <;> rfl

/-- A request in which an object is replaced. -/
def Request.replace (cell : Cell) (new : Value) (r : Request) : Request :=
  { r with
    value := r.value.map (CredentialValue.replace cell new)
    permissions := r.permissions.map (Grant.replace cell new) }

theorem Request.replace_toValue (cell : Cell) (new : Value) (r : Request) :
    Value.replace cell new r.toValue = (r.replace cell new).toValue := by
  simp only [Request.toValue, Request.replace, Value.replace, replaceAll,
    CredentialName.replace_toValue, CredentialValue.replace_toValue, Grant.replaceAll_toValue]

theorem RequestBuilder.replace_attrs (cell : Cell) (new : Value) (b : RequestBuilder)
    (permissions : Value) (gs : Option (List Grant)) :
    replaceAttrs cell new (b.attrs permissions) =
      { b with value := b.value.map (CredentialValue.replace cell new), permissions := gs }.attrs
        (Value.replace cell new permissions) := by
  simp only [RequestBuilder.attrs, replaceAttrs, CredentialName.replace_toValue,
    CredentialValue.replace_toValue, Value.replace]

namespace Division

variable {d d' : Division} {n n' : Nat} {c : Cell} {v new : Value}

/-- The common objects that were made before a moment. -/
def Common (d : Division) (n : Nat) (c : Cell) : Prop :=
  (∀ now ∈ c.head?, now < n) ∧ d c = .common

/-- The objects of documents. -/
def InDocument (d : Division) (c : Cell) : Prop :=
  d c = .document

/-- What is in no list of permissions and no builder. -/
def IsValue (d : Division) (n : Nat) (c : Cell) : Prop :=
  d.Common n c ∨ d.InDocument c

/-- Only objects that were made before a moment are set apart. -/
structure MadeBefore (d : Division) (n : Nat) : Prop where
  shared : d [] = .common
  made : ∀ {now : Nat} {old : Cell}, d (now :: old) ≠ .common → now < n

/-- The objects that will be made are common, so that computations do not lead out of the common
ones. -/
theorem MadeBefore.scope (h : d.MadeBefore n) : Scope d.Common n where
  later := fun hle hc => ⟨fun now hnow => Nat.lt_of_lt_of_le (hc.1 now hnow) hle, hc.2⟩
  made := fun {now} old hn => by
    refine ⟨fun now' hnow' => ?_, ?_⟩
    · cases hnow'
      exact Nat.lt_succ_self now
    · by_contra hne
      exact Nat.not_lt.2 hn (h.made hne)
  shared := fun _ => ⟨by simp, h.shared⟩

/-! ### Builders and what they built -/

/-- The document of a credential value is set apart, but for the objects in its keys. -/
def Guards (d : Division) (n : Nat) (o : Option CredentialValue) : Prop :=
  ∀ es, o = some (.json es) → OwnEntries d.InDocument es ∧ EntryKeysWithin (d.Common n) es

/-- The objects in permissions are common. -/
def Allows (d : Division) (n : Nat) (gs : List Grant) : Prop :=
  ∀ g ∈ gs, g.toValue.Within (d.Common n)

/-- A value keeps the permissions of a builder: null if it has none, or else a list that is set
apart. -/
inductive Keeps (d : Division) (n : Nat) : Option (List Grant) → Value → Prop where
  | none : Keeps d n none .null
  | some {gs : List Grant} {c : Cell} (hcell : d c = .grants) (hgs : d.Allows n gs) :
      Keeps d n (some gs) (.list c (gs.map Grant.toValue))

/-- A builder whose document is set apart. -/
inductive Building (d : Division) (n : Nat) : Value → Prop where
  | intro {m : Nat} {b : RequestBuilder} {permissions : Value} (hcell : d [m] = .builder)
      (hvalue : d.Guards n b.value) (hpermissions : d.Keeps n b.permissions permissions) :
      Building d n (.object .requestBuilder [m] (b.attrs permissions))

/-- A request, a credential value or the content of one, of which the document is set apart. -/
inductive Built (d : Division) (n : Nat) : Value → Prop where
  | request {r : Request} (hvalue : d.Guards n r.value) (hpermissions : d.Allows n r.permissions) :
      Built d n r.toValue
  | value {o : Option CredentialValue} (ho : d.Guards n o) :
      Built d n ((o.map CredentialValue.toValue).getD .null)
  | content {o : Option CredentialValue} (ho : d.Guards n o) :
      Built d n ((o.map CredentialValue.content).getD .null)

/-- What a register of a role may hold. -/
def Places (d : Division) (n : Nat) : Role → Value → Prop
  | .common, v => v.Within (d.Common n)
  | .builder, v => d.Building n v
  | .built, v => d.Built n v

theorem Guards.within {o : Option CredentialValue} (h : d.Guards n o) :
    ∀ es, o = some (.json es) → WithinEntries (d.IsValue n) es := by
  intro es hes
  obtain ⟨hown, hkeys⟩ := h es hes
  exact (hown.mono fun _ => .inr).within (hkeys.mono fun _ => .inl)

/-! ### Time -/

/-- More objects are set apart between two moments, none of which was there before. -/
structure Grows (d : Division) (n : Nat) (d' : Division) (n' : Nat) : Prop where
  common : ∀ c, d.Common n c → d'.Common n' c
  apart : ∀ c, d c ≠ .common → d' c = d c

theorem grows_later (h : n ≤ n') : Grows d n d n' where
  common := fun _ hc => ⟨fun now hnow => Nat.lt_of_lt_of_le (hc.1 now hnow) h, hc.2⟩
  apart := fun _ _ => rfl

/-- What is set apart stays where it is. -/
theorem Grows.region (h : Grows d n d' n') {c : Cell} {region : Region} (hc : d c = region)
    (hne : region ≠ .common) : d' c = region :=
  (h.apart c (by rwa [hc])).trans hc

theorem Grows.document (h : Grows d n d' n') {c : Cell} (hc : d.InDocument c) : d'.InDocument c :=
  h.region hc (by decide)

theorem Guards.grow {o : Option CredentialValue} (hgrows : Grows d n d' n') (h : d.Guards n o) :
    d'.Guards n' o := by
  intro es hes
  obtain ⟨hown, hkeys⟩ := h es hes
  exact ⟨hown.mono fun _ => hgrows.document, hkeys.mono hgrows.common⟩

theorem Allows.grow {gs : List Grant} (hgrows : Grows d n d' n') (h : d.Allows n gs) :
    d'.Allows n' gs :=
  fun g hg => (h g hg).mono hgrows.common

theorem Keeps.grow {o : Option (List Grant)} (hgrows : Grows d n d' n') (h : d.Keeps n o v) :
    d'.Keeps n' o v := by
  cases h with
  | none => exact .none
  | some hcell hgs => exact .some (hgrows.region hcell (by decide)) (hgs.grow hgrows)

theorem Places.grow {role : Role} (hgrows : Grows d n d' n') (h : d.Places n role v) :
    d'.Places n' role v := by
  cases role with
  | common => exact Within.mono hgrows.common h
  | builder =>
    obtain ⟨hcell, hvalue, hpermissions⟩ := h
    exact .intro (hgrows.region hcell (by decide)) (hvalue.grow hgrows) (hpermissions.grow hgrows)
  | built =>
    cases h with
    | request hvalue hpermissions => exact .request (hvalue.grow hgrows) (hpermissions.grow hgrows)
    | value ho => exact .value (ho.grow hgrows)
    | content ho => exact .content (ho.grow hgrows)

/-- All objects that are made between two moments are those of a document. -/
def withDocument (d : Division) (n n' : Nat) : Division
  | [] => d []
  | now :: old => if n ≤ now ∧ now < n' then .document else d (now :: old)

theorem MadeBefore.grows_withDocument (h : d.MadeBefore n) (hle : n ≤ n') :
    Grows d n (d.withDocument n n') n' where
  common := fun c hc => by
    have hlater := (grows_later hle).common c hc
    refine ⟨hlater.1, ?_⟩
    rcases c with _ | ⟨now, old⟩
    · exact hc.2
    · have hlt : now < n := hc.1 now rfl
      rw [withDocument, if_neg (by omega), hc.2]
  apart := fun c hne => by
    rcases c with _ | ⟨now, old⟩
    · rfl
    · have hlt := h.made hne
      rw [withDocument, if_neg (by omega)]

theorem MadeBefore.withDocument (h : d.MadeBefore n) (hle : n ≤ n') :
    (d.withDocument n n').MadeBefore n' where
  shared := h.shared
  made := fun {now old} hne => by
    rw [Division.withDocument] at hne
    split at hne
    · omega
    · exact Nat.lt_of_lt_of_le (h.made hne) hle

theorem inDocument_withDocument (hc : MadeSince n n' c) : (d.withDocument n n').InDocument c := by
  obtain ⟨now, old, rfl, hle, hlt⟩ := hc
  exact if_pos ⟨hle, hlt⟩

/-- The object that is made at a moment is set apart. -/
def withObject (d : Division) (n : Nat) (region : Region) : Division :=
  fun c => if c = [n] then region else d c

theorem MadeBefore.grows_withObject (h : d.MadeBefore n) (region : Region) :
    Grows d n (d.withObject n region) (n + 1) where
  common := fun c hc => by
    have hlater := (grows_later (Nat.le_succ n)).common c hc
    refine ⟨hlater.1, ?_⟩
    have hne : c ≠ [n] := by
      rintro rfl
      exact Nat.lt_irrefl n (hc.1 n rfl)
    rw [withObject, if_neg hne, hc.2]
  apart := fun c hne => by
    have hc : c ≠ [n] := by
      rintro rfl
      exact Nat.lt_irrefl n (h.made hne)
    rw [withObject, if_neg hc]

theorem MadeBefore.withObject (h : d.MadeBefore n) (region : Region) :
    (d.withObject n region).MadeBefore (n + 1) where
  shared := h.shared
  made := fun {now old} hne => by
    rw [Division.withObject] at hne
    split at hne
    · rename_i heq
      obtain rfl : now = n := (List.cons.inj heq).1
      exact Nat.lt_succ_self _
    · exact Nat.lt_succ_of_lt (h.made hne)

theorem withObject_self (d : Division) (n : Nat) (region : Region) :
    d.withObject n region [n] = region :=
  if_pos rfl

/-! ### Changes -/

/-- An object may be put in the place of one with a cell: it belongs where the other did. -/
inductive Fits (d : Division) (n : Nat) (c : Cell) : Value → Prop where
  | common {new : Value} (hcell : d.Common n c) (hnew : new.Within (d.Common n)) : Fits d n c new
  | grants {gs : List Grant} (hcell : d c = .grants) (hgs : d.Allows n gs) :
      Fits d n c (.list c (gs.map Grant.toValue))
  | builder {new : Value} (hcell : d c = .builder) (hnew : d.Building n new) : Fits d n c new

/-- A change is to a common object, or to one that is in no document and no value. -/
theorem Fits.cases_common (h : d.Fits n c new) :
    d.Common n c ∧ new.Within (d.Common n) ∨ ¬ d.IsValue n c := by
  have hapart {region : Region} (hcell : d c = region) (hcommon : region ≠ .common)
      (hdocument : region ≠ .document) : ¬ d.IsValue n c := by
    rintro (hc | hc)
    · exact hcommon (hcell.symm.trans hc.2)
    · exact hdocument (hcell.symm.trans hc)
  cases h with
  | common hcell hnew => exact .inl ⟨hcell, hnew⟩
  | grants hcell _ => exact .inr (hapart hcell (by decide) (by decide))
  | builder hcell _ => exact .inr (hapart hcell (by decide) (by decide))

theorem Fits.not_document (h : d.Fits n c new) : ¬ d.InDocument c := by
  intro hc
  rcases h.cases_common with ⟨hcell, -⟩ | hne
  · exact absurd (hcell.2.symm.trans hc) (by decide)
  · exact hne (.inr hc)

theorem Fits.within_replace (h : d.Fits n c new) (hv : v.Within (d.Common n)) :
    (replace c new v).Within (d.Common n) := by
  rcases h.cases_common with ⟨-, hnew⟩ | hne
  · exact Value.within_replace hnew hv
  · rwa [replace_of_within (fun hc => hne (.inl hc)) hv]

theorem Fits.guards_replace {o : Option CredentialValue} (h : d.Fits n c new) (ho : d.Guards n o) :
    d.Guards n (o.map (CredentialValue.replace c new)) := by
  rintro es hes
  rcases o with _ | w | es'
  · cases hes
  · cases hes
  · cases hes
    obtain ⟨hown, hkeys⟩ := ho es' rfl
    refine ⟨ownEntries_replace h.not_document hown, ?_⟩
    rcases h.cases_common with ⟨-, hnew⟩ | hne
    · exact entryKeysWithin_replace hnew hkeys
    · rwa [replaceEntries_of_within hne (ho.within es' rfl)]

theorem Fits.allows_replace {gs : List Grant} (h : d.Fits n c new) (hgs : d.Allows n gs) :
    d.Allows n (gs.map (Grant.replace c new)) := by
  intro g hg
  obtain ⟨g', hg', rfl⟩ := List.mem_map.1 hg
  exact h.within_replace (hgs g' hg')

/-- The list of a builder stays one: it is replaced as a whole, or its permissions are. -/
theorem Fits.keeps_replace {o : Option (List Grant)} (h : d.Fits n c new) (hv : d.Keeps n o v) :
    ∃ o', d.Keeps n o' (replace c new v) := by
  cases hv with
  | none => exact ⟨none, .none⟩
  | @some gs c' hcell hgs =>
    rw [replace]
    split
    · rename_i heq
      subst heq
      cases h with
      | common hcommon _ => exact absurd (hcommon.2.symm.trans hcell) (by decide)
      | grants _ hnew => exact ⟨_, .some hcell hnew⟩
      | builder hbuilder _ => exact absurd (hbuilder.symm.trans hcell) (by decide)
    · rw [Grant.replaceAll_toValue]
      exact ⟨_, .some hcell (h.allows_replace hgs)⟩

/-- A builder stays one: it is replaced as a whole, or its parts are. -/
theorem Fits.building_replace (h : d.Fits n c new) (hv : d.Building n v) :
    d.Building n (replace c new v) := by
  obtain ⟨hcell, hvalue, hpermissions⟩ := hv
  rw [replace]
  split
  · rename_i heq
    subst heq
    cases h with
    | common hcommon _ => exact absurd (hcommon.2.symm.trans hcell) (by decide)
    | grants hgrants _ => exact absurd (hgrants.symm.trans hcell) (by decide)
    | builder _ hnew => exact hnew
  · obtain ⟨gs, hgs⟩ := h.keeps_replace hpermissions
    rw [RequestBuilder.replace_attrs _ _ _ _ gs]
    exact .intro hcell (h.guards_replace hvalue) hgs

theorem Fits.built_replace (h : d.Fits n c new) (hv : d.Built n v) :
    d.Built n (replace c new v) := by
  cases hv with
  | request hvalue hpermissions =>
    rw [Request.replace_toValue]
    exact .request (h.guards_replace hvalue) (h.allows_replace hpermissions)
  | value ho =>
    rw [CredentialValue.replace_toValue]
    exact .value (h.guards_replace ho)
  | content ho =>
    rw [CredentialValue.replace_content]
    exact .content (h.guards_replace ho)

/-- What a register of a role may hold stays such when an object is replaced by one that fits. -/
theorem Fits.places_replace {role : Role} (h : d.Fits n c new) (hv : d.Places n role v) :
    d.Places n role (replace c new v) := by
  cases role with
  | common => exact h.within_replace hv
  | builder => exact h.building_replace hv
  | built => exact h.built_replace hv

end Division

end CredentialWrites
