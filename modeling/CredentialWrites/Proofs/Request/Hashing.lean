import CredentialWrites.Proofs.Request.Equality
import CredentialWrites.Proofs.Value.Hashing
import CredentialWrites.Script.Function

/-!
# Documents and requests as members of sets

Documents and requests are compared by their parts, and hashed by the hashable forms of the
documents in them. Both agree: two documents, or two requests, are one member of a set if they are
equal, and two members if they are not.

* `Grant.IsHashable` : a permission that can be hashed, such as every permission that was built.
* `Value.hashing_law` : equality and hashing agree.
-/

namespace CredentialWrites

open Making

namespace Value

variable {a b v w x fa fb form : Value} {s t : State}

/-! ### Forms of equal values -/

theorem same_of_eq (h : a.eq b) : same a b := by
  cases a <;> first | exact h | cases h

theorem eq_of_same (h : same a b) (ha : ∀ c, a ≠ nan c) : a.eq b := by
  cases a <;> first | exact h | exact absurd rfl (ha _)

/-- Only what is no number has that as its form. -/
theorem HasForm.eq_nan {c : Cell} (h : HasForm v (nan c)) : v = nan c := by
  unfold HasForm at h
  cases v <;> simp_all [hashForm, Except.map_eq_ok]

theorem Nested.eq_form (ha : Nested false a) (hab : a.eq b) (hfa : HasForm a fa)
    (hfb : HasForm b fb) : fa.eq fb := by
  refine eq_of_same (ha.same_form (same_of_eq hab) hfa hfb) fun c hc => ?_
  -- what is no number is equal to nothing
  subst hc
  rw [hfa.eq_nan] at hab
  cases hab

theorem HasForm.hashable_eq_ok (h : HasForm v form) : v.hashable = .ok form := by
  rw [hashable, h]
  rfl

/-! ### Documents -/

theorem exists_entries_of_gives_freezeMapping (h : (freezeMapping v).Gives s w t) :
    ∃ es, w.entries? = some es := by
  unfold freezeMapping at h
  split at h
  · simp only [gives_bind, gives_pure] at h
    obtain ⟨es, _, -, rfl, -⟩ := h
    exact ⟨es, rfl⟩
  · exact absurd h not_gives_fail

/-- A document that was made of a nested mapping can be hashed. -/
theorem isHashable_of_gives_document (hv : Nested false v)
    (h : (Function.call "JsonValue.of" ⟨[v], []⟩).Gives s x t) :
    IsHashable x ∧ ∃ w, x = record .json [w] := by
  have hcall : Function.call "JsonValue.of" ⟨[v], []⟩ =
      (do return record .json [← freezeMapping v]) := rfl
  rw [hcall] at h
  simp only [gives_bind, gives_pure] at h
  obtain ⟨w, _, hw, rfl, -⟩ := h
  obtain ⟨es, hes⟩ := exists_entries_of_gives_freezeMapping hw
  have hfrozen := hv.frozen (gives_freeze_of_gives_freezeMapping hw)
  exact ⟨isHashable_document hes hfrozen.nested, w, rfl⟩

end Value

open Value

/-! ### Permissions and requests -/

/-- A permission whose fields are nested values that can be hashed. -/
def Grant.IsHashable (g : Grant) : Prop :=
  g.toValue.IsHashable

/-- Every permission that was built can be hashed. -/
theorem Permission.isHashable_grant (p : Permission) : p.grant.IsHashable := by
  have hactor : IsHashable ((p.actor.map Actor.toValue).getD .null) := by
    cases p.actor with
    | none => exact isHashable_of_isScalar rfl
    | some a =>
      have hzone : ((a.zone.map Value.ofWord).getD .null).isScalar := by
        cases a.zone with
        | none => rfl
        | some w => exact isScalar_ofWord w
      refine isHashable_record (by decide) ?_
      simp only [List.forall_mem_cons]
      exact ⟨isHashable_of_isScalar rfl, isHashable_of_isScalar (isScalar_ofWord a.id),
        isHashable_of_isScalar hzone, List.forall_mem_nil _⟩
  have hoperations : IsHashable (.tuple (p.operations.map fun op => .member (.operation op))) := by
    refine isHashable_tuple fun v hv => ?_
    obtain ⟨op, -, rfl⟩ := List.mem_map.1 hv
    exact isHashable_of_isScalar rfl
  refine isHashable_record (by decide) ?_
  simp only [List.forall_mem_cons]
  exact ⟨hactor, hoperations, List.forall_mem_nil _⟩

namespace Request

variable {r : Request}

/-- A request that was built of a nested value can be hashed, if all its permissions can. -/
theorem IsBuilt.isHashable (hr : r.IsBuilt Grant.IsHashable) : r.toValue.IsHashable := by
  have hname : IsHashable ((r.name.map CredentialName.toValue).getD .null) := by
    cases r.name with
    | none => exact isHashable_of_isScalar rfl
    | some n =>
      refine isHashable_record (by decide) ?_
      simpa using isHashable_of_isScalar (isScalar_ofWord n.word)
  have hvalue : IsHashable ((r.value.map CredentialValue.toValue).getD .null) := by
    have hcontent := hr.nested_contentValue.1
    unfold contentValue at hcontent
    generalize r.value = value at hcontent ⊢
    rcases value with _ | ⟨w⟩ | ⟨es⟩
    · exact isHashable_of_isScalar rfl
    · refine isHashable_record (by decide) ?_
      simpa using isHashable_of_isScalar (isScalar_ofWord w)
    · exact isHashable_document rfl hcontent
  have hpermissions : IsHashable (.tuple (r.permissions.map Grant.toValue)) := by
    refine isHashable_tuple fun v hv => ?_
    obtain ⟨g, hg, rfl⟩ := List.mem_map.1 hv
    exact hr.grants g hg
  refine isHashable_record (by decide) ?_
  simp only [List.forall_mem_cons]
  exact ⟨isHashable_of_isScalar rfl, hname, hvalue, hpermissions, List.forall_mem_nil _⟩

end Request

namespace Value

/-- **Equality and hashing agree.** Nested values have hashable forms, which can be hashed and hold
no member twice, and equal values have equal forms. So the set of two documents, or of two requests
that were built of nested values and of permissions that can be hashed, has one member if they are
equal and two if they are not. Every permission that was built can be hashed. -/
theorem hashing_law :
    (∀ a b : Value, Nested false a → Nested false b → ∃ fa fb, a.hashable = .ok fa ∧
      b.hashable = .ok fb ∧
        fa.unhashable? = none ∧ fb.unhashable? = none ∧ Nested false fa ∧ Nested false fb ∧
        (a.eq b → fa.eq fb)) ∧
      (∀ (v w x y : Value) (s s' t t' : State), Nested false v → Nested false w →
        (Function.call "JsonValue.of" ⟨[v], []⟩).Gives s x t →
        (Function.call "JsonValue.of" ⟨[w], []⟩).Gives s' y t' →
        distinct [x, y] = .ok (if x.eq y then [x] else [x, y])) ∧
      (∀ r r' : Request, r.IsBuilt Grant.IsHashable → r'.IsBuilt Grant.IsHashable →
        distinct [r.toValue, r'.toValue] =
          .ok (if r.toValue.eq r'.toValue then [r.toValue] else [r.toValue, r'.toValue])) ∧
      ∀ p : Permission, p.grant.IsHashable := by
  refine ⟨fun a b ha hb => ?_, fun v w x y s s' t t' hv hw hx hy => ?_, fun r r' hr hr' => ?_,
    Permission.isHashable_grant⟩
  · obtain ⟨fa, hfa⟩ := ha.exists_form
    obtain ⟨fb, hfb⟩ := hb.exists_form
    exact ⟨fa, fb, hfa.hasForm.hashable_eq_ok, hfb.hasForm.hashable_eq_ok,
      hfa.hashable, hfb.hashable, hfa.nested, hfb.nested,
      fun hab => ha.eq_form hab hfa.hasForm hfb.hasForm⟩
  · obtain ⟨hhx, v', rfl⟩ := isHashable_of_gives_document hv hx
    obtain ⟨hhy, w', rfl⟩ := isHashable_of_gives_document hw hy
    exact distinct_pair hhx hhy
  · exact distinct_pair hr.isHashable hr'.isHashable

open Request in
/-- The mapping and the view, the documents that they make and the requests. -/
theorem hashing_law_of_mappingGiven :
    (∃ fa fb, mappingGiven.hashable = .ok fa ∧ viewGiven.hashable = .ok fb ∧ fa.eq fb) ∧
      (∃ x y t t', (Function.call "JsonValue.of" ⟨[mappingGiven], []⟩).Gives ⟨5, []⟩ x t ∧
        (Function.call "JsonValue.of" ⟨[viewGiven], []⟩).Gives ⟨9, []⟩ y t' ∧
          distinct [x, y] = .ok [x]) ∧
      mappingRequest.IsBuilt Grant.IsHashable ∧ viewRequest.IsBuilt Grant.IsHashable ∧
      distinct [mappingRequest.toValue, viewRequest.toValue] = .ok [mappingRequest.toValue] := by
  obtain ⟨hforms, hdocuments, hrequests, hpermissions⟩ := hashing_law
  have hr := isBuilt_mappingRequest (hpermissions permissionGiven)
  have hr' := isBuilt_viewRequest (hpermissions permissionGiven)
  obtain ⟨fa, fb, hfa, hfb, -, -, -, -, heq⟩ := hforms _ _ nested_mappingGiven nested_viewGiven
  exact ⟨⟨fa, fb, hfa, hfb, heq rfl⟩,
    ⟨_, _, _, _, rfl, rfl, hdocuments _ _ _ _ _ _ _ _ nested_mappingGiven nested_viewGiven rfl rfl⟩,
    hr, hr', hrequests _ _ hr hr'⟩

end Value

end CredentialWrites
