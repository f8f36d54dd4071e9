import CredentialWrites.Value.Basic

/-!
# The objects in a value

A value is made of objects, whose identities are their cells, and of parts that never change. A
change to an object that does not occur in a value leaves the value as it is; a change to one that
does puts nothing into the value but the objects of the new one.

* `Value.Within` : all objects in a value have cells of a kind.
* `Value.replace_of_within` : a change to an object that does not occur.
* `Value.within_replace`, `Value.within_relabel` : the objects after a change, and those of a copy.
-/

namespace CredentialWrites

namespace Value

mutual

/-- All objects in a value have cells of a kind. -/
def Within (P : Cell → Prop) : Value → Prop
  | tuple items => WithinAll P items
  | frozenSet items => WithinAll P items
  | view es => WithinEntries P es
  | record _ fields => WithinAll P fields
  | list c items => P c ∧ WithinAll P items
  | set c items => P c ∧ WithinAll P items
  | map c es => P c ∧ WithinEntries P es
  | buffer c _ => P c
  | stream c items => P c ∧ WithinAll P items
  | fault _ c args attrs => P c ∧ WithinAll P args ∧ WithinAttrs P attrs
  | object _ c attrs => P c ∧ WithinAttrs P attrs
  | null => True
  | bool _ => True
  | int _ => True
  | float _ => True
  | nan _ => True
  | text _ => True
  | bytes _ => True
  | member _ => True

/-- `Within` for every value of a list. -/
def WithinAll (P : Cell → Prop) : List Value → Prop
  | [] => True
  | v :: vs => Within P v ∧ WithinAll P vs

/-- `Within` for every key and value of a mapping. -/
def WithinEntries (P : Cell → Prop) : List (Value × Value) → Prop
  | [] => True
  | (k, v) :: es => Within P k ∧ Within P v ∧ WithinEntries P es

/-- `Within` for every attribute. -/
def WithinAttrs (P : Cell → Prop) : List (String × Value) → Prop
  | [] => True
  | (_, v) :: attrs => Within P v ∧ WithinAttrs P attrs

end

variable {P Q : Cell → Prop} {cell : Cell} {new : Value}

theorem withinAll_iff {vs : List Value} : WithinAll P vs ↔ ∀ v ∈ vs, v.Within P := by
  induction vs with
  | nil => simp [WithinAll]
  | cons v vs ih => simp [WithinAll, ih]

theorem withinEntries_iff {es : List (Value × Value)} :
    WithinEntries P es ↔ ∀ e ∈ es, e.1.Within P ∧ e.2.Within P := by
  induction es with
  | nil => simp [WithinEntries]
  | cons e es ih =>
    obtain ⟨k, v⟩ := e
    simp [WithinEntries, ih, and_assoc]

theorem withinAttrs_iff {attrs : List (String × Value)} :
    WithinAttrs P attrs ↔ ∀ a ∈ attrs, a.2.Within P := by
  induction attrs with
  | nil => simp [WithinAttrs]
  | cons a attrs ih =>
    obtain ⟨name, v⟩ := a
    simp [WithinAttrs, ih]

/-- The identity of a value is among those of its objects. -/
theorem Within.of_cell? : ∀ {v : Value}, v.Within P → v.cell? = some cell → P cell
  | list _ _, h, rfl | set _ _, h, rfl | map _ _, h, rfl | stream _ _, h, rfl
    | fault _ _ _ _, h, rfl
  | object _ _ _, h, rfl => h.1
  | buffer _ _, h, rfl => h

mutual

theorem Within.mono (hPQ : ∀ c, P c → Q c) : ∀ {v : Value}, v.Within P → v.Within Q
  | tuple _, h | frozenSet _, h | record _ _, h => WithinAll.mono hPQ h
  | view _, h => WithinEntries.mono hPQ h
  | list c _, h | set c _, h | stream c _, h => ⟨hPQ c h.1, WithinAll.mono hPQ h.2⟩
  | map c _, h => ⟨hPQ c h.1, WithinEntries.mono hPQ h.2⟩
  | buffer c _, h => hPQ c h
  | fault _ c _ _, h => ⟨hPQ c h.1, WithinAll.mono hPQ h.2.1, WithinAttrs.mono hPQ h.2.2⟩
  | object _ c _, h => ⟨hPQ c h.1, WithinAttrs.mono hPQ h.2⟩
  | null, _ | bool _, _ | int _, _ | float _, _ | nan _, _ | text _, _ | bytes _, _
  | member _, _ => trivial

theorem WithinAll.mono (hPQ : ∀ c, P c → Q c) : ∀ {vs : List Value}, WithinAll P vs → WithinAll Q vs
  | [], _ => trivial
  | _ :: _, h => ⟨h.1.mono hPQ, h.2.mono hPQ⟩

theorem WithinEntries.mono (hPQ : ∀ c, P c → Q c) :
    ∀ {es : List (Value × Value)}, WithinEntries P es → WithinEntries Q es
  | [], _ => trivial
  | (_, _) :: _, h => ⟨h.1.mono hPQ, h.2.1.mono hPQ, h.2.2.mono hPQ⟩

theorem WithinAttrs.mono (hPQ : ∀ c, P c → Q c) :
    ∀ {attrs : List (String × Value)}, WithinAttrs P attrs → WithinAttrs Q attrs
  | [], _ => trivial
  | (_, _) :: _, h => ⟨h.1.mono hPQ, h.2.mono hPQ⟩

end

/-! ### Changes -/

theorem ne_of_not_of {c : Cell} (hcell : ¬ P cell) (h : P c) : c ≠ cell := by
  rintro rfl
  exact hcell h

mutual

/-- A change to an object that does not occur in a value leaves the value as it is. -/
theorem replace_of_within (hcell : ¬ P cell) : ∀ {v : Value}, v.Within P → replace cell new v = v
  | tuple _, h | frozenSet _, h | record _ _, h => by rw [replace, replaceAll_of_within hcell h]
  | view _, h => by rw [replace, replaceEntries_of_within hcell h]
  | list c _, h | set c _, h | stream c _, h => by
    rw [replace, if_neg (ne_of_not_of hcell h.1), replaceAll_of_within hcell h.2]
  | map c _, h => by
    rw [replace, if_neg (ne_of_not_of hcell h.1), replaceEntries_of_within hcell h.2]
  | buffer c _, h => by rw [replace, if_neg (ne_of_not_of hcell h)]
  | fault _ c _ _, h => by
    rw [replace, if_neg (ne_of_not_of hcell h.1), replaceAll_of_within hcell h.2.1,
      replaceAttrs_of_within hcell h.2.2]
  | object _ c _, h => by
    rw [replace, if_neg (ne_of_not_of hcell h.1), replaceAttrs_of_within hcell h.2]
  | null, _ | bool _, _ | int _, _ | float _, _ | nan _, _ | text _, _ | bytes _, _
  | member _, _ => rfl

theorem replaceAll_of_within (hcell : ¬ P cell) :
    ∀ {vs : List Value}, WithinAll P vs → replaceAll cell new vs = vs
  | [], _ => rfl
  | _ :: _, h => by rw [replaceAll, replace_of_within hcell h.1, replaceAll_of_within hcell h.2]

theorem replaceEntries_of_within (hcell : ¬ P cell) :
    ∀ {es : List (Value × Value)}, WithinEntries P es → replaceEntries cell new es = es
  | [], _ => rfl
  | (_, _) :: _, h => by
    rw [replaceEntries, replace_of_within hcell h.1, replace_of_within hcell h.2.1,
      replaceEntries_of_within hcell h.2.2]

theorem replaceAttrs_of_within (hcell : ¬ P cell) :
    ∀ {attrs : List (String × Value)}, WithinAttrs P attrs → replaceAttrs cell new attrs = attrs
  | [], _ => rfl
  | (_, _) :: _, h => by
    rw [replaceAttrs, replace_of_within hcell h.1, replaceAttrs_of_within hcell h.2]

end

mutual

/-- A change puts nothing into a value but the objects of the new one. -/
theorem within_replace (hnew : new.Within P) :
    ∀ {v : Value}, v.Within P → (replace cell new v).Within P
  | tuple _, h | frozenSet _, h | record _ _, h => by
    rw [replace]
    exact withinAll_replace hnew h
  | view _, h => by
    rw [replace]
    exact withinEntries_replace hnew h
  | list c _, h | set c _, h | stream c _, h => by
    rw [replace]
    split
    · exact hnew
    · exact ⟨h.1, withinAll_replace hnew h.2⟩
  | map c _, h => by
    rw [replace]
    split
    · exact hnew
    · exact ⟨h.1, withinEntries_replace hnew h.2⟩
  | buffer c _, h => by
    rw [replace]
    split
    · exact hnew
    · exact h
  | fault _ c _ _, h => by
    rw [replace]
    split
    · exact hnew
    · exact ⟨h.1, withinAll_replace hnew h.2.1, withinAttrs_replace hnew h.2.2⟩
  | object _ c _, h => by
    rw [replace]
    split
    · exact hnew
    · exact ⟨h.1, withinAttrs_replace hnew h.2⟩
  | null, _ | bool _, _ | int _, _ | float _, _ | nan _, _ | text _, _ | bytes _, _
  | member _, _ => trivial

theorem withinAll_replace (hnew : new.Within P) :
    ∀ {vs : List Value}, WithinAll P vs → WithinAll P (replaceAll cell new vs)
  | [], _ => trivial
  | _ :: _, h => ⟨within_replace hnew h.1, withinAll_replace hnew h.2⟩

theorem withinEntries_replace (hnew : new.Within P) :
    ∀ {es : List (Value × Value)}, WithinEntries P es → WithinEntries P (replaceEntries cell new es)
  | [], _ => trivial
  | (_, _) :: _, h => ⟨within_replace hnew h.1, within_replace hnew h.2.1,
      withinEntries_replace hnew h.2.2⟩

theorem withinAttrs_replace (hnew : new.Within P) :
    ∀ {attrs : List (String × Value)}, WithinAttrs P attrs →
      WithinAttrs P (replaceAttrs cell new attrs)
  | [], _ => trivial
  | (_, _) :: _, h => ⟨within_replace hnew h.1, withinAttrs_replace hnew h.2⟩

end

/-! ### Copies -/

variable {f : Cell → Cell}

mutual

/-- All objects of a copy have cells of the kind that the copy gives them. -/
theorem within_relabel (hf : ∀ c, P (f c)) : ∀ v : Value, (v.relabel f).Within P
  | tuple items | frozenSet items | record _ items => by
    rw [relabel]
    exact withinAll_relabel hf items
  | view es => by
    rw [relabel]
    exact withinEntries_relabel hf es
  | list c items | set c items | stream c items => ⟨hf c, withinAll_relabel hf items⟩
  | map c es => ⟨hf c, withinEntries_relabel hf es⟩
  | buffer c _ => hf c
  | fault _ c args attrs => ⟨hf c, withinAll_relabel hf args, withinAttrs_relabel hf attrs⟩
  | object _ c attrs => ⟨hf c, withinAttrs_relabel hf attrs⟩
  | null | bool _ | int _ | float _ | nan _ | text _ | bytes _ | member _ => trivial

theorem withinAll_relabel (hf : ∀ c, P (f c)) : ∀ vs : List Value, WithinAll P (relabelAll f vs)
  | [] => trivial
  | v :: vs => ⟨within_relabel hf v, withinAll_relabel hf vs⟩

theorem withinEntries_relabel (hf : ∀ c, P (f c)) :
    ∀ es : List (Value × Value), WithinEntries P (relabelEntries f es)
  | [] => trivial
  | (k, v) :: es => ⟨within_relabel hf k, within_relabel hf v, withinEntries_relabel hf es⟩

theorem withinAttrs_relabel (hf : ∀ c, P (f c)) :
    ∀ attrs : List (String × Value), WithinAttrs P (relabelAttrs f attrs)
  | [] => trivial
  | (_, v) :: attrs => ⟨within_relabel hf v, withinAttrs_relabel hf attrs⟩

end

end Value

end CredentialWrites
