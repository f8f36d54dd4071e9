import CredentialWrites.Payload.Wire
import CredentialWrites.Proofs.Payload.Model
import CredentialWrites.Proofs.Value.Scope

/-!
# Payloads within a scope

Payloads and the mappings that they are rendered as have no objects but new ones and those of the
fields that they were made from. The payload of a request thaws its value, of which only the keys
are kept.

* `Payload.yields_request`, `Payload.yields_permission` : models within a scope.
* `Payload.yields_ofRequest` : the payload of a request, whose value may lie outside but for its
  keys.
* `Payload.yields_dump` : what is rendered within a scope.
* `Payload.yields_requestToDict` : a request as a mapping.
-/

namespace CredentialWrites

namespace Payload

open Making Value

variable {s : State} {P : Nat → Cell → Prop} {start : Nat} {v : Value}

/-! ### What is taken -/

section Taken

variable (hP : Admits P start)

include hP

theorem yields_takeList (hv : v.Within (P s.moment)) :
    (takeList v).Yields s fun n w => w.Within (P n) := by
  unfold takeList
  split
  · exact (yields_takeItems_within hP hv).bind fun _ _ _ h => yields_pure h
  · exact yields_pure hv

theorem yields_takeField {name : String} {take : Value → Making Value} {fields : Fields}
    (htake : ∀ w t, s.moment ≤ t.moment → w.Within (P t.moment) →
      (take w).Yields t fun n w => w.Within (P n))
    (hfields : WithinAttrs (P s.moment) fields) :
    (takeField name take fields).Yields s fun n fields => WithinAttrs (P n) fields := by
  induction fields with
  | nil => exact yields_pure trivial
  | cons f fields ih =>
    unfold takeField
    split
    · refine (htake f.2 s (Nat.le_refl _) hfields.1).bind fun w t hle hw => yields_pure ?_
      exact ⟨hw, hP.withinAttrs hle hfields.2⟩
    · refine (ih hfields.2).bind fun fields' t hle h => yields_pure ?_
      exact ⟨hP.within hle hfields.1, h⟩

theorem yields_takeOperations {es : List (Value × Value)} (hes : WithinEntries (P s.moment) es) :
    (takeOperations es).Yields s fun n es => WithinEntries (P n) es := by
  induction es with
  | nil => exact yields_pure trivial
  | cons e es ih =>
    unfold takeOperations
    split
    · refine (yields_takeList hP hes.2.1).bind fun w t hle hw => yields_pure ?_
      exact ⟨hP.within hle hes.1, hw, hP.withinEntries hle hes.2.2⟩
    · refine (ih hes.2.2).bind fun es' t hle h => yields_pure ?_
      exact ⟨hP.within hle hes.1, hP.within hle hes.2.1, h⟩

theorem yields_takeEntry (hv : v.Within (P s.moment)) :
    (takeEntry v).Yields s fun n w => w.Within (P n) := by
  unfold takeEntry
  split
  · rename_i c es
    refine (yields_takeOperations hP hv.2).bind fun es' t hle h => yields_pure ?_
    exact ⟨hP.later hle hv.1, h⟩
  · exact (yields_takeOperations hP hv).bind fun _ _ _ h => yields_pure h
  · exact yields_pure hv

theorem yields_takeEntries (hv : v.Within (P s.moment)) :
    (takeEntries v).Yields s fun n w => w.Within (P n) := by
  have heach {vs : List Value} {t : State} (hvs : WithinAll (P t.moment) vs) :
      (each takeEntry vs).Yields t fun n ws => WithinAll (P n) ws := by
    refine (yields_each (Q := fun n w => w.Within (P n)) (p := fun w => w.Within (P t.moment))
      (fun _ _ _ hle => hP.within hle) (fun w u hw hle => ?_) (withinAll_iff.1 hvs)).mono
      fun _ _ _ h => withinAll_iff.2 h
    exact yields_takeEntry hP (hP.within hle hw)
  refine (yields_takeList hP hv).bind fun w t hle hw => ?_
  split
  · exact (heach hw).bind fun _ _ _ h => yields_pure h
  · refine (heach hw.2).bind fun vs u hle' h => yields_pure ?_
    exact ⟨hP.later hle' hw.1, h⟩
  · exact yields_pure hw

end Taken

/-! ### What is read -/

/-- What stands for a permission in a body has only objects of a kind. -/
def PermissionEntry.Within (P : Cell → Prop) : PermissionEntry → Prop
  | model v => v.Within P
  | fields _ => True

theorem within_readEntry {P : Cell → Prop} {path : List Step} {e : PermissionEntry}
    (hv : v.Within P) (h : readEntry path v = .ok e) : e.Within P := by
  unfold readEntry at h
  split at h
  · cases h
    exact hv
  · split at h
    · obtain ⟨p, -, rfl⟩ := Except.map_eq_ok.1 h
      trivial
    · cases h

theorem items_of_field_items {vs : List Value} (h : Field.items v = .ok vs) : v.items = .ok vs := by
  unfold Field.items at h
  split at h
  · cases h
  · split at h
    · rename_i ws hws
      cases h
      exact hws
    · cases h

theorem forall_of_each_eq_ok {α : Type} {read : Nat → Value → Except (List FieldError) α}
    {p : Value → Prop}
    {q : α → Prop} (h : ∀ i v a, p v → read i v = .ok a → q a) {i : Nat} {vs : List Value}
    {as : List α}
    (hvs : ∀ v ∈ vs, p v) (has : Field.each read i vs = .ok as) : ∀ a ∈ as, q a := by
  induction vs generalizing i as with
  | nil =>
    obtain rfl := Except.ok.inj has
    simp
  | cons v vs ih =>
    rw [List.forall_mem_cons] at hvs
    simp only [Field.each, Except.map_eq_ok, both_eq_ok_iff] at has
    obtain ⟨⟨a, as⟩, ⟨ha, has⟩, rfl⟩ := has
    exact List.forall_mem_cons.2 ⟨h i v a hvs.1 ha, ih hvs.2 has⟩

/-- The entries that are read from the items of a field have only objects of the fields. -/
theorem within_of_listField {P : Cell → Prop} {fields : Fields} {name : String} {path : List Step}
    {entries : List PermissionEntry} (hfields : WithinAttrs P fields)
    (h : listField fields name path readEntry = .ok entries) : ∀ e ∈ entries, e.Within P := by
  unfold listField at h
  split at h
  · cases h
    simp
  · rename_i v hv
    obtain ⟨vs, hvs, h⟩ := Except.bind_eq_ok.1 h
    have hitems := items_of_field_items (along_eq_ok_iff.1 hvs)
    refine forall_of_each_eq_ok (p := fun w => w.Within P)
      (fun i w e hw he => within_readEntry hw he) ?_ h
    exact withinAll_iff.1 ((hfields.lookup hv).items hitems)

theorem within_readRequest {P : Cell → Prop} {fields : Fields} {r : RequestFields}
    (hfields : WithinAttrs P fields) (h : readRequest fields = .ok r) :
    r.value.Within P ∧ ∀ e ∈ r.permissions, e.Within P := by
  simp only [readRequest, Except.map_eq_ok, both_eq_ok_iff] at h
  obtain ⟨⟨overwrite, name, type, entries⟩, ⟨-, -, -, hentries⟩, rfl⟩ := h
  refine ⟨?_, within_of_listField hfields hentries⟩
  change ((fields.lookup "value").getD .null).Within P
  cases hv : fields.lookup "value" with
  | none => trivial
  | some v => exact hfields.lookup hv

/-! ### Models -/

theorem yields_accept {α : Type} {r : Except (List FieldError) α} :
    (accept r).Yields s fun n a => n = s.moment ∧ r = .ok a := by
  cases r with
  | ok a => exact yields_pure ⟨rfl, rfl⟩
  | error errors => exact yields_fail

theorem within_optionalText {P : Cell → Prop} (o : Option String) : (optionalText o).Within P := by
  cases o <;> trivial

section Models

variable (hP : Admits P start) (hs : start ≤ s.moment)

include hP hs

theorem yields_makePermission (p : PermissionFields) :
    (makePermission p).Yields s fun n w => w.Within (P n) := by
  have htexts : WithinAll (P s.moment) (p.operations.map .text) := by
    refine withinAll_iff.2 fun w hw => ?_
    obtain ⟨token, -, rfl⟩ := List.mem_map.1 hw
    trivial
  refine (yields_list hP hs htexts).bind fun operations t hle h => ?_
  exact yields_object hP (Nat.le_trans hs hle) ⟨within_optionalText _, h, trivial⟩

theorem yields_makeEntry {e : PermissionEntry} (he : e.Within (P s.moment)) :
    (makeEntry e).Yields s fun n w => w.Within (P n) := by
  cases e with
  | model v => exact yields_pure he
  | fields p => exact yields_makePermission hP hs p

theorem yields_makeEntries {entries : List PermissionEntry}
    (h : ∀ e ∈ entries, e.Within (P s.moment)) :
    (entries.mapM makeEntry).Yields s fun n ws => WithinAll (P n) ws := by
  induction entries generalizing s with
  | nil => exact yields_pure trivial
  | cons e entries ih =>
    rw [List.forall_mem_cons] at h
    rw [List.mapM_cons]
    refine (yields_makeEntry hP hs h.1).bind fun w t hle hw => ?_
    have hrest : ∀ e ∈ entries, e.Within (P t.moment) := by
      intro e he
      have hold := h.2 e he
      cases e with
      | model v => exact hP.within hle hold
      | fields p => trivial
    refine (ih (Nat.le_trans hs hle) hrest).bind fun ws u hle' hws => yields_pure ?_
    exact ⟨hP.within hle' hw, hws⟩

theorem yields_makeRequest {r : RequestFields} (hvalue : r.value.Within (P s.moment))
    (hentries : ∀ e ∈ r.permissions, e.Within (P s.moment)) :
    (makeRequest r).Yields s fun n w => w.Within (P n) := by
  refine (yields_makeEntries hP hs hentries).bind fun ws t hle hws => ?_
  refine (yields_list hP (Nat.le_trans hs hle) hws).bind fun permissions u hle' h => ?_
  have hvalue := hP.within (Nat.le_trans hle hle') hvalue
  refine yields_object hP (Nat.le_trans hs (Nat.le_trans hle hle')) ?_
  exact ⟨trivial, within_optionalText _, within_optionalText _, hvalue, h, trivial⟩

/-- A model of a permission from fields within a scope. -/
theorem yields_permission {fields : Fields} (hfields : WithinAttrs (P s.moment) fields) :
    (permission fields).Yields s fun n w => w.Within (P n) := by
  refine (yields_takeField hP (fun _ _ _ => yields_takeList hP) hfields).bind fun fields' t hle _ =>
    ?_
  refine yields_accept.bind fun p u hle' _ => ?_
  exact yields_makePermission hP (Nat.le_trans hs (Nat.le_trans hle hle')) p

/-- A model of a body from fields within a scope. -/
theorem yields_request {fields : Fields} (hfields : WithinAttrs (P s.moment) fields) :
    (request fields).Yields s fun n w => w.Within (P n) := by
  refine (yields_takeField hP (fun _ _ _ => yields_takeEntries hP) hfields).bind
    fun fields' t hle h => ?_
  refine yields_accept.bind fun r u hle' hr => ?_
  obtain ⟨hu, hr⟩ := hr
  obtain ⟨hvalue, hentries⟩ := within_readRequest h hr
  rw [← hu] at hvalue hentries
  exact yields_makeRequest hP (Nat.le_trans hs (Nat.le_trans hle hle')) hvalue hentries

end Models

/-! ### Payloads of permissions and requests -/

/-- What a request is rendered from has cells of a kind: all of its attributes, and the keys of its
value. -/
structure RenderedWithin (P : Cell → Prop) (v : Value) : Prop where
  attr : ∀ name ∈ ["overwrite", "name", "type", "additional_permissions"], ∀ w,
    v.storedAttr name = .ok w →
    w.Within P
  value : ∀ w, v.storedAttr "value" = .ok w → w.KeysWithin P

theorem RenderedWithin.of_within {P : Cell → Prop} (hshared : P []) (h : v.Within P) :
    RenderedWithin P v where
  attr := fun _ _ _ hw => h.storedAttr hshared hw
  value := fun _ hw => (h.storedAttr hshared hw).keysWithin

section Records

variable (hP : Scope P start) (hs : start ≤ s.moment)

include hP hs

theorem yields_ofPermission (hv : v.Within (P s.moment)) :
    (ofPermission v).Yields s fun n w => w.Within (P n) := by
  refine (yields_storedAttr hP hv).bind fun actor t hle hactor => ?_
  have hst := Nat.le_trans hs hle
  have hv := hP.within hle hv
  -- what is made of the identity does not depend on how it was found
  have hrest {identity : Value} {u : State} (hle : t.moment ≤ u.moment)
  (h : identity.Within (P u.moment)) :
      (do
        let tokens ← v.attr "operation_tokens"
        let operations ← Making.list (← tokens.takeItems)
        permission [("actor", identity), ("operations", operations)] : Making Value).Yields u
        fun n w => w.Within (P n) := by
    have hsu := Nat.le_trans hst hle
    refine (yields_attr hP hsu (hP.within hle hv)).bind fun tokens u₁ hle₁ htokens => ?_
    refine (yields_takeItems_within hP.toAdmits htokens).bind fun items u₂ hle₂ hitems => ?_
    have hsu₂ := Nat.le_trans hsu (Nat.le_trans hle₁ hle₂)
    refine (yields_list hP.toAdmits hsu₂ hitems).bind fun operations u₃ hle₃ hoperations => ?_
    refine yields_permission hP.toAdmits (Nat.le_trans hsu₂ hle₃) ?_
    exact ⟨hP.within (Nat.le_trans hle₁ (Nat.le_trans hle₂ hle₃)) h, hoperations, trivial⟩
  dsimp only
  split
  · have hnull : (pure .null : Making Value).Yields t fun n w => w.Within (P n) :=
      yields_pure trivial
    exact hnull.bind fun identity u hle h => hrest hle h
  · exact (yields_storedAttr hP hactor).bind fun identity u hle h => hrest hle h

/-- The payload of a request is within the scope that it is rendered in. -/
theorem yields_ofRequest (hv : RenderedWithin (P s.moment) v) :
    (ofRequest v).Yields s fun n w => w.Within (P n) := by
  have hread {name : String} {t : State}
      (hname : name ∈ ["overwrite", "name", "type", "additional_permissions"])
      (hle : s.moment ≤ t.moment) :
      (liftM (v.storedAttr name) : Making Value).Yields t fun n w => w.Within (P n) :=
    yields_lift fun w hw => hP.within hle (hv.attr name hname w hw)
  refine (hread (by decide) (Nat.le_refl _)).bind fun overwrite t₁ h₁ hoverwrite => ?_
  refine (hread (by decide) h₁).bind fun name t₂ h₂ hname => ?_
  have h₂' := Nat.le_trans h₁ h₂
  refine (hread (by decide) h₂').bind fun type t₃ h₃ htype => ?_
  have h₃' := Nat.le_trans h₂' h₃
  have hcontent : (liftM (v.storedAttr "value") : Making Value).Yields t₃ fun n w =>
  w.KeysWithin (P n) :=
    yields_lift fun w hw => (hv.value w hw).mono fun _ => hP.later h₃'
  refine hcontent.bind fun content t₄ h₄ hcontent => ?_
  have h₄' := Nat.le_trans h₃' h₄
  refine (yields_thaw hP.toAdmits content
    (Nat.le_trans hs h₄') hcontent).bind fun value t₅ h₅ hvalue => ?_
  have h₅' := Nat.le_trans h₄' h₅
  refine (hread (by decide) h₅').bind fun permissions t₆ h₆ hpermissions => ?_
  have h₆' := Nat.le_trans h₅' h₆
  refine (yields_forEach_within (Q := fun n w => w.Within (P n)) hP.toAdmits hpermissions
    (fun _ _ _ hle => hP.within hle) fun w t hle hw => ?_).bind fun payloads t₇ h₇ hpayloads => ?_
  · exact yields_ofPermission hP (Nat.le_trans hs (Nat.le_trans h₆' hle)) hw
  have h₇' := Nat.le_trans h₆' h₇
  refine (yields_list hP.toAdmits (Nat.le_trans hs h₇') (withinAll_iff.2 hpayloads)).bind
    fun list t₈ h₈ hlist => ?_
  refine yields_request hP.toAdmits (Nat.le_trans hs (Nat.le_trans h₇' h₈)) ?_
  have hlater {n : Nat} {w : Value} (hn : n ≤ t₈.moment) (hw : w.Within (P n)) :
      w.Within (P t₈.moment) :=
    hP.within hn hw
  exact ⟨hlater (by omega) hoverwrite, hlater (by omega) hname, hlater (by omega) htype,
    hlater (by omega) hvalue, hlist, trivial⟩

end Records

/-! ### Rendering -/

theorem withinEntries_entriesOf {P : Cell → Prop} {fields : List (String × Value)}
    (h : WithinAttrs P fields) : WithinEntries P (entriesOf fields) := by
  refine withinEntries_iff.2 fun e he => ?_
  obtain ⟨f, hf, rfl⟩ := List.mem_map.1 he
  exact ⟨trivial, withinAttrs_iff.1 h f hf⟩

theorem withinEntries_namedEntries {P : Cell → Prop} {names : List String} {fields : List Value}
    (h : WithinAll P fields) : WithinEntries P (namedEntries names fields) := by
  refine withinEntries_iff.2 fun e he => ?_
  obtain ⟨hname, hfield⟩ := List.of_mem_zip he
  obtain ⟨name, -, hname⟩ := List.mem_map.1 hname
  rw [← hname]
  exact ⟨trivial, withinAll_iff.1 h e.2 hfield⟩

section Rendering

variable (hP : Admits P start)

include hP

/-- A mapping of fields within a scope. -/
theorem yields_mapOf {m : Making (List (String × Value))} (hs : start ≤ s.moment)
    (hm : m.Yields s fun n fields => WithinAttrs (P n) fields) :
    (do Making.map (entriesOf (← m)) : Making Value).Yields s fun n w => w.Within (P n) :=
  hm.bind fun _ _ hle h => yields_map hP (Nat.le_trans hs hle) (withinEntries_entriesOf h)

omit hP in
/-- What is nested too deeply is kept. -/
theorem yields_kept {shape : FieldShape} {level : Nat} {m : Making Value}
    (hv : v.Within (P s.moment)) (h : m.Yields s fun n w => w.Within (P n)) :
    (if !shape.fits v && maxLevel < level then pure v else m).Yields s fun n w =>
      w.Within (P n) := by
  split
  · exact yields_pure hv
  · exact h

mutual

/-- What is rendered has no objects but new ones and those of the value. -/
theorem yields_dump : ∀ (shape : FieldShape) (level : Nat) (v : Value) {s : State},
    start ≤ s.moment →
    v.Within (P s.moment) → (dump shape level v).Yields s fun n w => w.Within (P n)
  | shape, level, .map c es, s, hs, hv => by
    rw [dump]
    refine yields_kept (v := .map c es) hv ?_
    refine (yields_dumpEntries _ es hs hv.2).bind fun es' t hle h => ?_
    have hentries : (liftM (Value.entriesOf es') : Making _).Yields t fun n es =>
        WithinEntries (P n) es :=
      yields_lift fun _ h' => h.entriesOf h'
    refine hentries.bind fun es'' u hle' h => ?_
    exact yields_map hP (Nat.le_trans hs (Nat.le_trans hle hle')) h
  | shape, level, .list c items, s, hs, hv => by
    rw [dump]
    refine yields_kept (v := .list c items) hv ?_
    refine (yields_dumpAll _ _ items hs hv.2).bind fun items' t hle h => ?_
    exact yields_list hP (Nat.le_trans hs hle) h
  | shape, level, .tuple items, s, hs, hv => by
    rw [dump]
    refine yields_kept (v := .tuple items) hv ?_
    exact (yields_dumpAll _ _ items hs hv).bind fun _ _ _ h => yields_pure h
  | shape, level, .set c items, s, hs, hv => by
    rw [dump]
    refine yields_kept (v := .set c items) hv ?_
    refine (yields_dumpAll _ _ items hs hv.2).bind fun items' t hle h => ?_
    refine (yields_fresh hP (Nat.le_trans hs hle)).bind fun cell u hle' hcell => ?_
    have hmembers : (liftM (Value.distinct items') : Making _).Yields u fun n vs =>
        WithinAll (P n) vs :=
      yields_lift fun _ h' => hP.withinAll hle' (h.distinct h')
    refine hmembers.bind fun members r hle'' h => yields_pure ?_
    exact ⟨hP.later hle'' hcell, h⟩
  | shape, level, .frozenSet items, s, hs, hv => by
    rw [dump]
    refine yields_kept (v := .frozenSet items) hv ?_
    refine (yields_dumpAll _ _ items hs hv).bind fun items' t hle h => ?_
    have hmembers : (liftM (Value.distinct items') : Making _).Yields t fun n vs =>
        WithinAll (P n) vs :=
      yields_lift fun _ h' => h.distinct h'
    exact hmembers.bind fun _ _ _ h => yields_pure h
  | shape, level, .record kind fields, s, hs, hv => by
    rw [dump]
    refine yields_kept (v := .record kind fields) hv ?_
    split
    · exact yields_mapOf hP hs (yields_dumpGrant _ kind fields hs hv)
    · refine (yields_dumpAll _ _ fields hs hv).bind fun fields' t hle h => ?_
      exact yields_map hP (Nat.le_trans hs hle) (withinEntries_namedEntries h)
  | shape, level, .member m, s, hs, hv => by
    rw [dump]
    refine yields_kept (v := .member m) hv ?_
    split
    · exact yields_map hP hs withinEntries_nil
    · exact yields_pure hv
  | shape, level, .fault c cell args attrs, s, hs, hv => by
    rw [dump]
    refine yields_kept (v := .fault c cell args attrs) hv ?_
    split
    · exact yields_mapOf hP hs (yields_dumpFields _ _ attrs hs hv.2.2)
    · exact yields_pure hv
  | shape, level, .object kind c attrs, s, hs, hv => by
    rw [dump]
    refine yields_kept (v := .object kind c attrs) hv ?_
    split
    · exact yields_mapOf hP hs (yields_dumpFields _ _ attrs hs hv.2)
    · split
      · exact yields_mapOf hP hs (yields_dumpFields _ _ attrs hs hv.2)
      · exact yields_pure hv
  | shape, level, .null, s, hs, hv | shape, level, .bool _, s, hs, hv
  | shape, level, .int _, s, hs, hv
  | shape, level, .float _, s, hs, hv | shape, level, .nan _, s, hs, hv
  | shape, level, .text _, s, hs, hv | shape, level, .bytes _, s, hs, hv
  | shape, level, .view _, s, hs, hv | shape, level, .buffer _ _, s, hs, hv
  | shape, level, .stream _ _, s, hs, hv => by
    simp only [dump]
    split <;> exact yields_pure hv

theorem yields_dumpAll : ∀ (shape : FieldShape) (level : Nat) (vs : List Value) {s : State},
    start ≤ s.moment → WithinAll (P s.moment) vs →
      (dumpAll shape level vs).Yields s fun n ws => WithinAll (P n) ws
  | _, _, [], _, _, _ => yields_pure trivial
  | shape, level, v :: vs, s, hs, hvs => by
    refine (yields_dump shape level v hs hvs.1).bind fun w t hle hw => ?_
    refine (yields_dumpAll shape level vs (Nat.le_trans hs hle) (hP.withinAll hle hvs.2)).bind
      fun ws u hle' hws => yields_pure ?_
    exact ⟨hP.within hle' hw, hws⟩

theorem yields_dumpEntries : ∀ (level : Nat) (es : List (Value × Value)) {s : State},
    start ≤ s.moment → WithinEntries (P s.moment) es →
      (dumpEntries level es).Yields s fun n es' => WithinEntries (P n) es'
  | _, [], _, _, _ => yields_pure trivial
  | level, (k, v) :: es, s, hs, hes => by
    refine (yields_dump .any level k hs hes.1).bind fun k' t₁ h₁ hk => ?_
    have hs₁ := Nat.le_trans hs h₁
    refine (yields_dump .any level v hs₁ (hP.within h₁ hes.2.1)).bind fun v' t₂ h₂ hv => ?_
    have h₂' := Nat.le_trans h₁ h₂
    refine (yields_dumpEntries level es (Nat.le_trans hs h₂') (hP.withinEntries h₂' hes.2.2)).bind
      fun es' t₃ h₃ h => yields_pure ?_
    exact ⟨hP.within (Nat.le_trans h₂ h₃) hk, hP.within h₃ hv, h⟩

theorem yields_dumpFields : ∀ (kind : ObjectKind) (level : Nat) (attrs :
    List (String × Value)) {s : State}, start ≤ s.moment → WithinAttrs (P s.moment) attrs →
      (dumpFields kind level attrs).Yields s fun n fields => WithinAttrs (P n) fields
  | _, _, [], _, _, _ => yields_pure trivial
  | kind, level, (name, v) :: attrs, s, hs, h => by
    rw [dumpFields]
    split
    · refine (yields_dump _ level v hs h.1).bind fun w t hle hw => ?_
      refine (yields_dumpFields kind level attrs (Nat.le_trans hs hle)
        (hP.withinAttrs hle h.2)).bind fun fields u hle' hfields => yields_pure ?_
      exact ⟨hP.within hle' hw, hfields⟩
    · exact yields_dumpFields kind level attrs hs h.2

theorem yields_dumpGrant : ∀ (level : Nat) (kind : RecordKind) (fields : List Value) {s : State},
    start ≤ s.moment → WithinAll (P s.moment) fields →
      (dumpGrant level kind fields).Yields s fun n fields => WithinAttrs (P n) fields
  | level, kind, actor :: operations :: _, s, hs, h => by
    rw [dumpGrant]
    split
    · refine (yields_dump _ level actor hs h.1).bind fun actor' t hle hactor => ?_
      refine (yields_dump _ level operations (Nat.le_trans hs hle) (hP.within hle h.2.1)).bind
        fun operations' u hle' hoperations => yields_pure ?_
      exact ⟨hP.within hle' hactor, hoperations, trivial⟩
    · exact yields_pure trivial
  | _, _, [], _, _, _ | _, _, [_], _, _, _ => yields_pure trivial

end

/-- A body as a mapping within a scope. -/
theorem yields_toDict (hs : start ≤ s.moment) (hv : v.Within (P s.moment)) :
    (toDict v).Yields s fun n w => w.Within (P n) := by
  unfold toDict
  split
  · rename_i c attrs
    have hwritten : WithinAttrs (P s.moment) (written attrs) := by
      refine withinAttrs_iff.2 fun a ha => withinAttrs_iff.1 hv.2 a ?_
      exact (List.mem_filter.1 (List.mem_filter.1 ha).1).1
    exact yields_mapOf hP hs (yields_dumpFields hP _ _ _ hs hwritten)
  · exact yields_fail

end Rendering

section Dicts

variable (hP : Scope P start) (hs : start ≤ s.moment)

include hP hs

theorem yields_permissionToDict (hv : v.Within (P s.moment)) :
    (permissionToDict v).Yields s fun n w => w.Within (P n) := by
  refine (yields_ofPermission hP hs hv).bind fun w t hle hw => ?_
  split
  · have hst := Nat.le_trans hs hle
    exact yields_mapOf hP.toAdmits hst (yields_dumpFields hP.toAdmits _ _ _ hst hw.2)
  · exact yields_pure hw

/-- A request as a mapping within the scope that it is rendered in. -/
theorem yields_requestToDict (hv : RenderedWithin (P s.moment) v) :
    (requestToDict v).Yields s fun n w => w.Within (P n) :=
  (yields_ofRequest hP hs hv).bind fun _ _ hle hw =>
    yields_toDict hP.toAdmits (Nat.le_trans hs hle) hw

end Dicts

/-! ### Texts -/

theorem timePasses_wireAccept (r : Except SerializationFault α) : TimePasses (Wire.accept r) := by
  cases r with
  | ok a => exact timePasses_pure a
  | error cause => exact timePasses_fail _

theorem timePasses_ofMember (shape : FieldShape) (level : Nat) (m : Member) :
    TimePasses (Wire.ofMember shape level m) :=
  .ite (timePasses_pure _) (.ite (timePasses_fail _) (timePasses_pure _))

mutual

/-- A value is refused for its depth, or it is written as its kind is. -/
theorem timePasses_document : ∀ (shape : FieldShape) (level : Nat) (v : Value),
    TimePasses (Wire.document shape level v)
  | shape, level, .null | shape, level, .bool _ | shape, level, .int _ | shape, level, .float _
  | shape, level, .nan _ | shape, level, .text _ => by
    rw [Wire.document]
    exact .ite (timePasses_fail _) (timePasses_pure _)
  | shape, level, .bytes _ | shape, level, .buffer _ _ => by
    rw [Wire.document]
    exact .ite (timePasses_fail _) (timePasses_wireAccept _).map
  | shape, level, .member m => by
    rw [Wire.document]
    exact .ite (timePasses_fail _) (timePasses_ofMember shape level m)
  | shape, level, .tuple items | shape, level, .frozenSet items | shape, level, .list _ items
  | shape, level, .set _ items => by
    rw [Wire.document]
    exact .ite (timePasses_fail _) (timePasses_documents _ _ items).map
  | shape, level, .map _ es => by
    rw [Wire.document]
    exact .ite (timePasses_fail _) (timePasses_members _ es).map
  | shape, level, .view _ => by
    rw [Wire.document]
    exact .ite (timePasses_fail _) (timePasses_fail _)
  | shape, level, .stream c items => by
    have hget : TimePasses (get : Making State) := fun _ => yields_get
    rw [Wire.document]
    exact .ite (timePasses_fail _) (hget.bind fun s => (timePasses_taken c _ _ items).map)
  | shape, level, .record kind fields => by
    rw [Wire.document]
    refine .ite (timePasses_fail _) (.ite ?_ ?_)
    · exact (timePasses_grantMembers _ kind fields).map
    · exact (timePasses_documents _ _ fields).map
  | shape, level, .fault _ _ _ attrs => by
    rw [Wire.document]
    exact .ite (timePasses_fail _)
      (.ite (timePasses_fieldMembers _ _ attrs).map (timePasses_fail _))
  | shape, level, .object _ _ attrs => by
    rw [Wire.document]
    refine .ite (timePasses_fail _) (.ite ?_ (.ite ?_ (timePasses_fail _)))
    · exact (timePasses_fieldMembers _ _ attrs).map
    · exact (timePasses_fieldMembers _ _ attrs).map

theorem timePasses_documents : ∀ (shape : FieldShape) (level : Nat) (vs : List Value),
    TimePasses (Wire.documents shape level vs)
  | _, _, [] => timePasses_pure _
  | shape, level, v :: vs =>
    (timePasses_document shape level v).bind fun _ => (timePasses_documents shape level vs).map

theorem timePasses_taken : ∀ (cell : Cell) (level before : Nat) (vs : List Value),
    TimePasses (Wire.taken cell level before vs)
  | _, _, _, [] => timePasses_pure _
  | cell, level, before + 1, _ :: vs => timePasses_taken cell level before vs
  | cell, level, 0, v :: vs => by
    have htake : TimePasses (Making.take cell) := fun _ => yields_take
    exact htake.bind fun _ => (timePasses_document .any level v).bind fun _ =>
      (timePasses_taken cell level 0 vs).map

theorem timePasses_members : ∀ (level : Nat) (es : List (Value × Value)),
    TimePasses (Wire.members level es)
  | _, [] => timePasses_pure _
  | level, (_, v) :: es =>
    (timePasses_wireAccept _).bind fun _ => (timePasses_document .any level v).bind fun _ =>
      (timePasses_members level es).map

theorem timePasses_fieldMembers :
    ∀ (kind : ObjectKind) (level : Nat) (attrs : List (String × Value)),
    TimePasses (Wire.fieldMembers kind level attrs)
  | _, _, [] => timePasses_pure _
  | kind, level, (_, v) :: attrs => by
    rw [Wire.fieldMembers]
    refine .ite ?_ (timePasses_fieldMembers kind level attrs)
    exact (timePasses_document _ level v).bind fun _ =>
      (timePasses_fieldMembers kind level attrs).map

theorem timePasses_grantMembers : ∀ (level : Nat) (kind : RecordKind) (fields : List Value),
    TimePasses (Wire.grantMembers level kind fields)
  | level, kind, actor :: operations :: _ => by
    rw [Wire.grantMembers]
    refine .ite ?_ (timePasses_pure _)
    exact (timePasses_document _ level actor).bind fun _ =>
      (timePasses_document _ level operations).map
  | _, _, [] | _, _, [_] => timePasses_pure _

end

theorem timePasses_toJson (v indent : Value) : TimePasses (toJson v indent) := by
  unfold toJson
  split
  · exact (timePasses_lift _).bind fun _ => (timePasses_fieldMembers _ _ _).map
  · exact timePasses_fail _

theorem timePasses_requestToJson (v indent : Value) : TimePasses (requestToJson v indent) := by
  have hpayload : TimePasses (ofRequest v) := fun s =>
    (yields_ofRequest (scope_all s.moment) (Nat.le_refl _)
      (.of_within trivial (within_of_forall (fun _ => trivial) v))).mono fun _ _ _ _ => trivial
  exact hpayload.bind fun payload => timePasses_toJson payload indent

end Payload

end CredentialWrites
