import CredentialWrites.Proofs.Value.Cells
import CredentialWrites.Proofs.Value.Parts
import CredentialWrites.Value.Snapshot

/-!
# The objects of parts and of changed values

What is taken from a value has no objects but those of the value, and a changed value has none but
its own and those of what was put there. A method is an object of its own, which all values share.

* `Value.Within.of_mem_items`, `Value.Within.item`, `Value.Within.storedAttr` : the objects of
  parts.
* `Value.Within.setItem`, `Value.Within.deleteItem`, `Value.Within.append` : the objects after a
  change.
-/

namespace CredentialWrites

namespace Value

variable {P : Cell → Prop}

theorem withinAll_nil : WithinAll P [] := trivial

theorem withinEntries_nil : WithinEntries P [] := trivial

theorem withinAttrs_nil : WithinAttrs P [] := trivial

theorem withinAll_singleton {v : Value} (h : v.Within P) : WithinAll P [v] :=
  ⟨h, trivial⟩

mutual

/-- If all cells are of a kind, then so are those of all objects in a value. -/
theorem within_of_forall (hP : ∀ c, P c) : ∀ v : Value, v.Within P
  | tuple items | frozenSet items | record _ items => withinAll_of_forall hP items
  | view es => withinEntries_of_forall hP es
  | list c items | set c items | stream c items => ⟨hP c, withinAll_of_forall hP items⟩
  | map c es => ⟨hP c, withinEntries_of_forall hP es⟩
  | buffer c _ => hP c
  | fault _ c args attrs => ⟨hP c, withinAll_of_forall hP args, withinAttrs_of_forall hP attrs⟩
  | object _ c attrs => ⟨hP c, withinAttrs_of_forall hP attrs⟩
  | null | bool _ | int _ | float _ | nan _ | text _ | bytes _ | member _ => trivial

theorem withinAll_of_forall (hP : ∀ c, P c) : ∀ vs : List Value, WithinAll P vs
  | [] => trivial
  | v :: vs => ⟨within_of_forall hP v, withinAll_of_forall hP vs⟩

theorem withinEntries_of_forall (hP : ∀ c, P c) : ∀ es : List (Value × Value), WithinEntries P es
  | [] => trivial
  | (k, v) :: es => ⟨within_of_forall hP k, within_of_forall hP v, withinEntries_of_forall hP es⟩

theorem withinAttrs_of_forall (hP : ∀ c, P c) : ∀ attrs : List (String × Value), WithinAttrs P attrs
  | [] => trivial
  | (_, v) :: attrs => ⟨within_of_forall hP v, withinAttrs_of_forall hP attrs⟩

end

@[simp] theorem within_ofWord (w : Word) : (ofWord w).Within P := by
  cases w <;> trivial

/-! ### Parts -/

theorem withinAll_byteItems (bs : List UInt8) : WithinAll P (byteItems bs) := by
  refine withinAll_iff.2 fun w hw => ?_
  obtain ⟨b, -, rfl⟩ := List.mem_map.1 hw
  trivial

theorem withinAll_texts (cs : List Char) : WithinAll P (cs.map fun c => text c.toString) := by
  refine withinAll_iff.2 fun w hw => ?_
  obtain ⟨c, -, rfl⟩ := List.mem_map.1 hw
  trivial

theorem withinAll_keys {es : List (Value × Value)} (h : WithinEntries P es) :
    WithinAll P (es.map Prod.fst) := by
  refine withinAll_iff.2 fun w hw => ?_
  obtain ⟨e, he, rfl⟩ := List.mem_map.1 hw
  exact (withinEntries_iff.1 h e he).1

/-- The items of a value have no objects but its own. -/
theorem Within.items {v : Value} {vs : List Value} (h : v.Within P) (hvs : v.items = .ok vs) :
    WithinAll P vs := by
  have hof {ws : List Value} (hw : WithinAll P ws)
      (heq : (Except.ok ws : Except Fault _) = .ok vs) : WithinAll P vs := Except.ok.inj heq ▸ hw
  cases v with
  | text s => exact hof (withinAll_texts s.toList) hvs
  | bytes bs | buffer c bs => exact hof (withinAll_byteItems bs) hvs
  | tuple ws | frozenSet ws => exact hof h hvs
  | list c ws | set c ws | stream c ws => exact hof h.2 hvs
  | view es => exact hof (withinAll_keys h) hvs
  | map c es => exact hof (withinAll_keys h.2) hvs
  | object kind c attrs =>
    simp only [Value.items] at hvs
    split at hvs
    · refine hof (withinAll_iff.2 fun w hw => ?_) hvs
      obtain ⟨a, ha, rfl⟩ := List.mem_map.1 hw
      exact ⟨trivial, withinAttrs_iff.1 h.2 a (List.mem_filter.1 ha).1, trivial⟩
    · cases hvs
  | member m =>
    simp only [Value.items] at hvs
    split at hvs
    · exact hof (withinAll_texts _) hvs
    · cases hvs
  | null | bool _ | int _ | float _ | nan _ | record _ _ | fault _ _ _ _ => cases hvs

/-- What is found under a key of a value has no objects but those of the value. -/
theorem Within.item {v key w : Value} (h : v.Within P) (hw : v.item key = .ok w) : w.Within P := by
  have hat {container : String} {use : IndexUse} {vs : List Value} (hvs : WithinAll P vs)
      (hw : itemAt container use vs key = .ok w) : w.Within P :=
    withinAll_iff.1 hvs w (mem_of_itemAt hw)
  have hunder {es : List (Value × Value)} (hes : WithinEntries P es) (hw : entryAt es key = .ok w) :
      w.Within P := by
    obtain ⟨k, hmem⟩ := exists_mem_of_entryAt hw
    exact (withinEntries_iff.1 hes _ hmem).2
  cases v with
  | list c vs => exact hat h.2 hw
  | tuple vs => exact hat h hw
  | bytes bs | buffer c bs => exact hat (withinAll_byteItems bs) hw
  | view es => exact hunder h hw
  | map c es => exact hunder h.2 hw
  | text s => exact hat (withinAll_texts s.toList) hw
  | member m =>
    simp only [Value.item] at hw
    split at hw
    · exact hat (withinAll_texts _) hw
    · cases hw
  | null | bool _ | int _ | float _ | nan _ | frozenSet _ | set _ _ | stream _ _ | record _ _
  | fault _ _ _ _ | object _ _ _ => cases hw

/-! ### Attributes -/

theorem WithinAttrs.lookup {attrs : List (String × Value)} {name : String} {w : Value}
    (h : WithinAttrs P attrs) (hw : attrs.lookup name = some w) : w.Within P := by
  obtain ⟨front, back, rfl, -⟩ := List.lookup_eq_some_iff.1 hw
  exact withinAttrs_iff.1 h (name, w) (by simp)

theorem withinAttrs_zip {names : List String} {vs : List Value} (h : WithinAll P vs) :
    WithinAttrs P (names.zip vs) :=
  withinAttrs_iff.2 fun a ha => withinAll_iff.1 h a.2 (List.of_mem_zip ha).2

/-- A method is the object that all methods are. -/
theorem within_boundMethod (hnil : P []) : boundMethod.Within P :=
  ⟨hnil, trivial⟩

section Attributes

variable (hnil : P [])

include hnil

theorem within_attrAmong {kind attr : String} {attrs : List (String × Value)}
    {methods : List String} {w : Value} (h : WithinAttrs P attrs)
    (hw : attrAmong kind attrs methods attr = .ok w) :
    w.Within P := by
  unfold attrAmong at hw
  split at hw
  · rename_i u hu
    cases hw
    exact h.lookup hu
  · split at hw
    · cases hw
      exact within_boundMethod hnil
    · cases hw

theorem within_memberAttr {m : Member} {attr : String} {w : Value}
    (hw : memberAttr m attr = .ok w) : w.Within P := by
  unfold memberAttr at hw
  split at hw
  case h_9 =>
    split at hw
    · cases hw
      trivial
    · cases hw
  case h_8 =>
    cases hw
    exact within_boundMethod hnil
  all_goals
    cases hw
    trivial

omit hnil in
theorem within_numberAttr {v w : Value} {attr : String} (hw : numberAttr v attr = .ok w) :
    w.Within P := by
  unfold numberAttr at hw
  split at hw <;> cases hw <;> trivial

theorem within_typeToken {v w : Value} (h : v.Within P) (hw : typeToken v = .ok w) :
    w.Within P := by
  cases v with
  | member m => exact within_memberAttr hnil hw
  | fault c _ args attrs => exact within_attrAmong hnil h.2.2 hw
  | object kind c attrs => exact within_attrAmong hnil h.2 hw
  | _ => cases hw

mutual

/-- A stored attribute has no objects but those of the value. -/
theorem Within.storedAttr : ∀ {v w : Value} {attr : String}, v.Within P →
    storedAttr attr v = .ok w →
    w.Within P
  | member m, w, attr, _, hw => within_memberAttr hnil hw
  | record kind fields, w, attr, h, hw => by
    have hamong
        (hw : attrAmong kind.className (kind.fieldNames.zip fields) (recordMethods kind) attr =
        .ok w) : w.Within P := within_attrAmong hnil (withinAttrs_zip h) hw
    cases kind with
    | request => exact WithinAll.requestAttr h hw
    | actor =>
      simp only [Value.storedAttr] at hw
      split at hw
      · obtain ⟨s, -, hw⟩ := Except.bind_eq_ok.1 hw
        rw [← Except.pure_eq_ok.1 hw]
        trivial
      · exact hamong hw
    | password | json =>
      simp only [Value.storedAttr] at hw
      split at hw
      · cases hw
        trivial
      · exact hamong hw
    | name | permission => exact hamong hw
  | fault c _ args attrs, w, attr, h, hw => by
    simp only [Value.storedAttr] at hw
    split at hw
    · cases hw
      exact h.2.1
    · exact within_attrAmong hnil h.2.2 hw
  | object kind _ attrs, w, attr, h, hw => within_attrAmong hnil h.2 hw
  | null, w, attr, _, hw | bool _, w, attr, _, hw | int _, w, attr, _, hw | float _, w, attr, _, hw
  | nan _, w, attr, _, hw | text _, w, attr, _, hw | bytes _, w, attr, _, hw
  | tuple _, w, attr, _, hw | frozenSet _, w, attr, _, hw | view _, w, attr, _, hw
  | list _ _, w, attr, _, hw | set _ _, w, attr, _, hw | map _ _, w, attr, _, hw
  | buffer _ _, w, attr, _, hw | stream _ _, w, attr, _, hw => by
    simp only [Value.storedAttr] at hw
    exact within_numberAttr hw

theorem WithinAll.requestAttr :
    ∀ {fields : List Value} {w : Value} {attr : String}, WithinAll P fields →
    requestAttr attr fields = .ok w → w.Within P
  | overwrite :: name :: value :: permissions :: _, w, attr, h, hw => by
    obtain ⟨hoverwrite, hname, hvalue, hpermissions, -⟩ := h
    unfold Value.requestAttr at hw
    split at hw
    · cases hw
      exact hoverwrite
    · cases hw
      exact hname
    · cases hw
      exact hvalue
    · cases hw
      exact hpermissions
    · split at hw
      · cases hw
        trivial
      · exact hname.storedAttr hw
    · split at hw
      · cases hw
        trivial
      · exact hvalue.storedAttr hw
    · split at hw
      · cases hw
        trivial
      · obtain ⟨type, htype, hw⟩ := Except.bind_eq_ok.1 hw
        exact within_typeToken hnil (hvalue.storedAttr htype) hw
    · split at hw
      · cases hw
        trivial
      · exact hvalue.storedAttr hw
    · exact within_attrAmong hnil withinAttrs_nil hw
  | [], w, attr, _, hw | [_], w, attr, _, hw | [_, _], w, attr, _, hw
  | [_, _, _], w, attr, _, hw => by
    cases hw

end

end Attributes

/-! ### Changes -/

theorem WithinAttrs.putAttr {attrs : List (String × Value)} {name : String} {new : Value}
    (h : WithinAttrs P attrs) (hnew : new.Within P) : WithinAttrs P (putAttr name new attrs) := by
  induction attrs with
  | nil => exact ⟨hnew, trivial⟩
  | cons a attrs ih =>
    unfold Value.putAttr
    split
    · exact ⟨hnew, h.2⟩
    · exact ⟨h.1, ih h.2⟩

theorem WithinEntries.putEntry {es : List (Value × Value)} {key new : Value}
    (h : WithinEntries P es) (hkey : key.Within P) (hnew : new.Within P) :
    WithinEntries P (putEntry key new es) := by
  induction es with
  | nil => exact ⟨hkey, hnew, trivial⟩
  | cons e es ih =>
    unfold Value.putEntry
    split
    · exact ⟨h.1, hnew, h.2.2⟩
    · exact ⟨h.1, h.2.1, ih h.2.2⟩

theorem WithinEntries.put {es es' : List (Value × Value)} {key new : Value} (h : WithinEntries P es)
    (hkey : key.Within P) (hnew : new.Within P) (hes : put key new es = .ok es') :
    WithinEntries P es' := by
  unfold Value.put at hes
  split at hes
  · cases hes
  · cases hes
    exact h.putEntry hkey hnew

theorem WithinAll.insert {vs ws : List Value} {v : Value} (h : WithinAll P vs) (hv : v.Within P)
    (hws : insert v vs = .ok ws) : WithinAll P ws := by
  unfold Value.insert at hws
  split at hws
  · cases hws
  · cases hws
    split
    · exact h
    · refine withinAll_iff.2 fun w hw => ?_
      rcases List.mem_append.1 hw with hw | hw
      · exact withinAll_iff.1 h w hw
      · rw [List.mem_singleton.1 hw]
        exact hv

/-- The members of a set of some values are among the values. -/
theorem WithinAll.distinct {vs ws : List Value} (h : WithinAll P vs) (hws : distinct vs = .ok ws) :
    WithinAll P ws := by
  have hfold {front : List Value} (hfront : WithinAll P front) :
      ∀ {vs : List Value}, WithinAll P vs →
        vs.foldlM (fun items v => Value.insert v items) front = .ok ws → WithinAll P ws := by
    intro vs h hws
    induction vs generalizing front with
    | nil => exact Except.ok.inj hws ▸ hfront
    | cons v vs ih =>
      rw [List.foldlM_cons] at hws
      obtain ⟨front', hfront', hws⟩ := Except.bind_eq_ok.1 hws
      exact ih (hfront.insert h.1 hfront') h.2 hws
  exact hfold withinAll_nil h hws

/-- The entries of a mapping of some pairs are made of the pairs. -/
theorem WithinEntries.entriesOf {es es' : List (Value × Value)} (h : WithinEntries P es)
    (hes : entriesOf es = .ok es') : WithinEntries P es' := by
  have hfold {front : List (Value × Value)} (hfront : WithinEntries P front) :
      ∀ {es : List (Value × Value)}, WithinEntries P es →
        es.foldlM (fun es p => Value.put p.1 p.2 es) front = .ok es' → WithinEntries P es' := by
    intro es h hes
    induction es generalizing front with
    | nil => exact Except.ok.inj hes ▸ hfront
    | cons e es ih =>
      rw [List.foldlM_cons] at hes
      obtain ⟨front', hfront', hes⟩ := Except.bind_eq_ok.1 hes
      exact ih (hfront.put h.1 h.2.1 hfront') h.2.2 hes
  exact hfold withinEntries_nil h hes

/-- A changed value has no objects but its own and those of what was put there. -/
theorem Within.setItem {v key new w : Value} (h : v.Within P) (hkey : key.Within P)
    (hnew : new.Within P) (hw : v.setItem key new = .ok w) : w.Within P := by
  cases v with
  | list c vs =>
    obtain ⟨i, -, hw⟩ := Except.bind_eq_ok.1 hw
    rw [← Except.pure_eq_ok.1 hw]
    refine ⟨h.1, withinAll_iff.2 fun u hu => ?_⟩
    rcases List.mem_or_eq_of_mem_set hu with hu | rfl
    · exact withinAll_iff.1 h.2 u hu
    · exact hnew
  | map c es =>
    obtain ⟨es', hes, hw⟩ := Except.bind_eq_ok.1 hw
    rw [← Except.pure_eq_ok.1 hw]
    exact ⟨h.1, h.2.put hkey hnew hes⟩
  | buffer c bs =>
    obtain ⟨i, -, hw⟩ := Except.bind_eq_ok.1 hw
    obtain ⟨b, -, hw⟩ := Except.bind_eq_ok.1 hw
    obtain ⟨j, -, hw⟩ := Except.bind_eq_ok.1 hw
    rw [← Except.pure_eq_ok.1 hw]
    exact h
  | _ => cases hw

theorem Within.deleteItem {v key w : Value} (h : v.Within P) (hw : v.deleteItem key = .ok w) :
    w.Within P := by
  cases v with
  | list c vs =>
    obtain ⟨i, -, hw⟩ := Except.bind_eq_ok.1 hw
    rw [← Except.pure_eq_ok.1 hw]
    exact ⟨h.1, withinAll_iff.2 fun u hu => withinAll_iff.1 h.2 u (List.mem_of_mem_eraseIdx hu)⟩
  | map c es =>
    simp only [Value.deleteItem] at hw
    split at hw
    · cases hw
    · split at hw
      · cases hw
        exact ⟨h.1, withinEntries_iff.2 fun e he =>
          withinEntries_iff.1 h.2 e (List.mem_filter.1 he).1⟩
      · obtain ⟨_, -, hw⟩ := Except.bind_eq_ok.1 hw
        cases hw
  | buffer c bs =>
    obtain ⟨i, -, hw⟩ := Except.bind_eq_ok.1 hw
    rw [← Except.pure_eq_ok.1 hw]
    exact h
  | _ => cases hw

theorem Within.append {v new w : Value} (h : v.Within P) (hnew : new.Within P)
    (hw : v.append new = .ok w) : w.Within P := by
  cases v with
  | list c vs =>
    cases hw
    refine ⟨h.1, withinAll_iff.2 fun u hu => ?_⟩
    rcases List.mem_append.1 hu with hu | hu
    · exact withinAll_iff.1 h.2 u hu
    · rw [List.mem_singleton.1 hu]
      exact hnew
  | buffer c bs =>
    obtain ⟨b, -, hw⟩ := Except.bind_eq_ok.1 hw
    rw [← Except.pure_eq_ok.1 hw]
    exact h
  | _ => cases hw

/-! ### Hashable forms -/

mutual

/-- The hashable form of a value has no objects but those of the value. -/
theorem Within.hashForm : ∀ {v w : Value} {why : Option Fault}, v.Within P →
    hashForm v = .ok (w, why) → w.Within P
  | view es, w, why, h, hw => by
    obtain ⟨forms, hforms, hw⟩ := Except.bind_eq_ok.1 hw
    cases hw
    exact WithinEntries.hashForm h hforms
  | map _ es, w, why, h, hw => by
    obtain ⟨forms, hforms, hw⟩ := Except.bind_eq_ok.1 hw
    cases hw
    exact WithinEntries.hashForm h.2 hforms
  | list _ items, w, why, h, hw => by
    obtain ⟨forms, hforms, hw⟩ := Except.bind_eq_ok.1 hw
    cases hw
    exact WithinAll.hashForm h.2 hforms
  | tuple items, w, why, h, hw => by
    obtain ⟨forms, hforms, hw⟩ := Except.bind_eq_ok.1 hw
    cases hw
    exact WithinAll.hashForm h hforms
  | set _ items, w, why, h, hw => by
    obtain ⟨forms, hforms, hw⟩ := Except.bind_eq_ok.1 hw
    cases hw
    exact WithinAll.hashFormMembers h.2 hforms
  | frozenSet items, w, why, h, hw => by
    obtain ⟨forms, hforms, hw⟩ := Except.bind_eq_ok.1 hw
    cases hw
    exact WithinAll.hashFormMembers h hforms
  | record _ _, w, why, h, hw | buffer _ _, w, why, h, hw | object _ _ _, w, why, h, hw
  | stream _ _, w, why, h, hw | fault _ _ _ _, w, why, h, hw | null, w, why, h, hw
  | bool _, w, why, h, hw | int _, w, why, h, hw | float _, w, why, h, hw | nan _, w, why, h, hw
  | text _, w, why, h, hw | bytes _, w, why, h, hw | member _, w, why, h, hw => by
    cases hw
    exact h

theorem WithinAll.hashForm : ∀ {vs ws : List Value} {why : Option Fault}, WithinAll P vs →
    hashFormAll vs = .ok (ws, why) → WithinAll P ws
  | [], ws, why, _, hw => by
    cases hw
    trivial
  | v :: vs, ws, why, h, hw => by
    obtain ⟨⟨form, why'⟩, hform, hw⟩ := Except.bind_eq_ok.1 hw
    obtain ⟨⟨forms, whys⟩, hforms, hw⟩ := Except.bind_eq_ok.1 hw
    cases hw
    exact ⟨h.1.hashForm hform, WithinAll.hashForm h.2 hforms⟩

theorem WithinAll.hashFormMembers : ∀ {vs ws : List Value}, WithinAll P vs →
    hashFormMembers vs = .ok ws → WithinAll P ws
  | [], ws, _, hw => by
    cases hw
    trivial
  | v :: vs, ws, h, hw => by
    obtain ⟨⟨form, why⟩, hform, hw⟩ := Except.bind_eq_ok.1 hw
    cases why with
    | some f => cases hw
    | none =>
      obtain ⟨forms, hforms, hw⟩ := Except.bind_eq_ok.1 hw
      cases hw
      exact ⟨h.1.hashForm hform, WithinAll.hashFormMembers h.2 hforms⟩

theorem WithinEntries.hashForm :
    ∀ {es : List (Value × Value)} {ws : List Value}, WithinEntries P es →
    hashFormEntries es = .ok ws → WithinAll P ws
  | [], ws, _, hw => by
    cases hw
    trivial
  | (k, v) :: es, ws, h, hw => by
    obtain ⟨⟨form, why⟩, hform, hw⟩ := Except.bind_eq_ok.1 hw
    cases why with
    | some f => cases hw
    | none =>
      obtain ⟨forms, hforms, hw⟩ := Except.bind_eq_ok.1 hw
      cases hw
      exact ⟨⟨h.1, h.2.1.hashForm hform, trivial⟩, WithinEntries.hashForm h.2.2 hforms⟩

end

theorem Within.hashable {v w : Value} (h : v.Within P) (hw : v.hashable = .ok w) : w.Within P := by
  obtain ⟨⟨form, why⟩, hform, hw⟩ := Except.bind_eq_ok.1 hw
  cases hw
  exact h.hashForm hform

/-! ### Snapshots -/

/-- The snapshot of a sequence is made of its items. -/
theorem Within.freezeSequence {v w : Value} (h : v.Within P) (hw : v.freezeSequence = .ok w) :
    w.Within P := by
  unfold Value.freezeSequence at hw
  split at hw
  · cases hw
    trivial
  · obtain ⟨n, -, hw⟩ := Except.bind_eq_ok.1 hw
    split at hw
    · cases hw
      trivial
    · obtain ⟨u, hu, hw⟩ := Except.bind_eq_ok.1 hw
      cases hw
      exact ⟨h.item hu, trivial⟩
    · obtain ⟨us, hus, hw⟩ := Except.bind_eq_ok.1 hw
      cases hw
      exact h.items hus

end Value

end CredentialWrites
