import CredentialWrites.Proofs.Value.Cells
import CredentialWrites.Proofs.Value.Renaming
import CredentialWrites.Value.Hashing

/-!
# Comparisons under other names

Under other names for their objects, of which no two get one name, values are the same exactly if
they were before. So what is a key stays one, and a mapping or a set of renamed values is the
renamed mapping or set.

* `Value.same_relabel`, `Value.alike_relabel` : renamed values are compared like the values.
* `Value.unhashable?_relabel` : what is a key stays one.
* `Value.distinct_relabel`, `Value.entriesOf_relabel` : sets and mappings of renamed values.
-/

namespace CredentialWrites

namespace Value

variable {f g : Cell → Cell}

/-! ### Renaming twice, and not at all -/

mutual

theorem relabel_relabel (f g : Cell → Cell) :
    ∀ v : Value, (v.relabel g).relabel f = v.relabel (f ∘ g)
  | tuple items | frozenSet items | record _ items | list _ items | set _ items
    | stream _ items => by
    simp only [relabel, relabelAll_relabelAll f g items, Function.comp_apply]
  | view es
  | map _ es => by simp only [relabel, relabelEntries_relabelEntries f g es, Function.comp_apply]
  | fault _ _ args attrs => by
    simp only [relabel, relabelAll_relabelAll f g args, relabelAttrs_relabelAttrs f g attrs,
      Function.comp_apply]
  | object _ _ attrs => by simp only [relabel, relabelAttrs_relabelAttrs f g attrs,
      Function.comp_apply]
  | null | bool _ | int _ | float _ | nan _ | text _ | bytes _ | member _ | buffer _ _ => rfl

theorem relabelAll_relabelAll (f g : Cell → Cell) :
    ∀ vs : List Value, relabelAll f (relabelAll g vs) = relabelAll (f ∘ g) vs
  | [] => rfl
  | v :: vs => by simp only [relabelAll, relabel_relabel f g v, relabelAll_relabelAll f g vs]

theorem relabelEntries_relabelEntries (f g : Cell → Cell) :
    ∀ es : List (Value × Value), relabelEntries f (relabelEntries g es) = relabelEntries (f ∘ g) es
  | [] => rfl
  | (k, v) :: es => by
    simp only [relabelEntries, relabel_relabel f g k, relabel_relabel f g v,
      relabelEntries_relabelEntries f g es]

theorem relabelAttrs_relabelAttrs (f g : Cell → Cell) :
    ∀ attrs : List (String × Value),
      relabelAttrs f (relabelAttrs g attrs) = relabelAttrs (f ∘ g) attrs
  | [] => rfl
  | (_, v) :: attrs => by
    simp only [relabelAttrs, relabel_relabel f g v, relabelAttrs_relabelAttrs f g attrs]

end

mutual

/-- A value all of whose objects keep their names stays as it is. -/
theorem relabel_of_within : ∀ {v : Value}, v.Within (fun c => f c = c) → v.relabel f = v
  | tuple _, h | frozenSet _, h | record _ _, h => by rw [relabel, relabelAll_of_within h]
  | view _, h => by rw [relabel, relabelEntries_of_within h]
  | list _ _, h | set _ _, h | stream _ _, h => by
    obtain ⟨hc, h⟩ := h
    rw [relabel, relabelAll_of_within h, hc]
  | map _ _, h => by
    obtain ⟨hc, h⟩ := h
    rw [relabel, relabelEntries_of_within h, hc]
  | buffer _ _, h => by
    change _ = _ at h
    rw [relabel, h]
  | fault _ _ _ _, h => by
    obtain ⟨hc, h, h'⟩ := h
    rw [relabel, relabelAll_of_within h, relabelAttrs_of_within h', hc]
  | object _ _ _, h => by
    obtain ⟨hc, h⟩ := h
    rw [relabel, relabelAttrs_of_within h, hc]
  | null, _ | bool _, _ | int _, _ | float _, _ | nan _, _ | text _, _ | bytes _, _
  | member _, _ => rfl

theorem relabelAll_of_within :
    ∀ {vs : List Value}, WithinAll (fun c => f c = c) vs → relabelAll f vs = vs
  | [], _ => rfl
  | _ :: _, h => by rw [relabelAll, relabel_of_within h.1, relabelAll_of_within h.2]

theorem relabelEntries_of_within :
    ∀ {es : List (Value × Value)}, WithinEntries (fun c => f c = c) es →
    relabelEntries f es = es
  | [], _ => rfl
  | (_, _) :: _, h => by
    rw [relabelEntries, relabel_of_within h.1, relabel_of_within h.2.1,
      relabelEntries_of_within h.2.2]

theorem relabelAttrs_of_within :
    ∀ {attrs : List (String × Value)}, WithinAttrs (fun c => f c = c) attrs →
    relabelAttrs f attrs = attrs
  | [], _ => rfl
  | (_, _) :: _, h => by rw [relabelAttrs, relabel_of_within h.1, relabelAttrs_of_within h.2]

end

/-! ### Comparisons -/

theorem relabelAll_length (vs : List Value) : (relabelAll f vs).length = vs.length := by
  rw [relabelAll_eq_map, List.length_map]

theorem relabelEntries_length (es : List (Value × Value)) :
    (relabelEntries f es).length = es.length := by
  rw [relabelEntries_eq_map, List.length_map]

theorem lookup_relabelAttrs (name : String) (attrs : List (String × Value)) :
    (relabelAttrs f attrs).lookup name = (attrs.lookup name).map (relabel f) := by
  induction attrs with
  | nil => rfl
  | cons a attrs ih =>
    obtain ⟨other, v⟩ := a
    simp only [relabelAttrs, List.lookup_cons]
    cases name == other
    · exact ih
    · rfl

theorem beq_cell (hf : Function.Injective f) (c d : Cell) : (f c == f d) = (c == d) := by
  by_cases h : c = d
  · simp [h]
  · simp [h, hf.eq_iff]

mutual

/-- Renamed values are the same exactly if the values are. -/
theorem same_relabel (hf : Function.Injective f) :
    ∀ a b : Value, same (a.relabel f) (b.relabel f) = same a b
  | tuple xs, b | list _ xs, b => by cases b <;> simp only [relabel, same, sameAll_relabelAll hf xs]
  | frozenSet xs, b | set _ xs, b => by
    cases b <;> simp only [relabel, same, eachIn_relabelAll hf xs, relabelAll_length]
  | view es, b | map _ es, b => by
    cases b <;> simp only [relabel, same, eachEntryIn_relabelEntries hf es, relabelEntries_length]
  | record _ xs, b => by cases b <;> simp only [relabel, same, sameAll_relabelAll hf xs]
  | stream c _, b | fault _ c _ _, b => by cases b <;> simp only [relabel, same, beq_cell hf]
  | object _ c xs, b => by
    cases b <;> simp only [relabel, same, beq_cell hf, sameFields_relabelAttrs hf xs]
  | null, b | bool _, b | int _, b | float _, b | nan _, b | text _, b | bytes _, b | buffer _ _, b
  | member _, b => by cases b <;> rfl

theorem sameAll_relabelAll (hf : Function.Injective f) :
    ∀ xs ys : List Value, sameAll (relabelAll f xs) (relabelAll f ys) = sameAll xs ys
  | [], ys => by cases ys <;> rfl
  | x :: xs, ys => by
    cases ys with
    | nil => rfl
    | cons y ys => simp only [relabelAll, sameAll, same_relabel hf x y, sameAll_relabelAll hf xs ys]

theorem eachIn_relabelAll (hf : Function.Injective f) :
    ∀ xs ys : List Value, eachIn (relabelAll f xs) (relabelAll f ys) = eachIn xs ys
  | [], _ => rfl
  | x :: xs, ys => by
    have hany : (relabelAll f ys).any (same (x.relabel f)) = ys.any (same x) := by
      rw [relabelAll_eq_map, List.any_map]
      exact congrArg ys.any (funext fun y => same_relabel hf x y)
    simp only [relabelAll, eachIn, eachIn_relabelAll hf xs ys, hany]

theorem eachEntryIn_relabelEntries (hf : Function.Injective f) : ∀ es ds : List (Value × Value),
    eachEntryIn (relabelEntries f es) (relabelEntries f ds) = eachEntryIn es ds
  | [], _ => rfl
  | (k, v) :: es, ds => by
    have hany : (relabelEntries f ds).any
        (fun d => same (k.relabel f) d.1 && same (v.relabel f) d.2) = ds.any fun d =>
        same k d.1 && same v d.2 := by
      rw [relabelEntries_eq_map, List.any_map]
      refine congrArg ds.any (funext fun d => ?_)
      rw [Function.comp_apply, same_relabel hf k d.1, same_relabel hf v d.2]
    rw [relabelEntries, eachEntryIn, hany, eachEntryIn_relabelEntries hf es ds, eachEntryIn]

theorem sameFields_relabelAttrs (hf : Function.Injective f) :
    ∀ (xs : List (String × Value)) (kind : ObjectKind) (ys : List (String × Value)),
    sameFields kind (relabelAttrs f ys) (relabelAttrs f xs) = sameFields kind ys xs
  | [], _, _ => rfl
  | (name, v) :: xs, kind, ys => by
    rw [relabelAttrs, sameFields, sameFields_relabelAttrs hf xs kind ys, sameFields,
      lookup_relabelAttrs]
    cases ys.lookup name with
    | none => rfl
    | some w => simp only [Option.map_some, same_relabel hf v w]

end

/-! ### Keys -/

mutual

/-- What is a key stays one, and what is none fails for the same reason. -/
theorem unhashable?_relabel (f : Cell → Cell) :
    ∀ v : Value, (v.relabel f).unhashable? = v.unhashable?
  | tuple items => by simp only [relabel, unhashable?, unhashableAmong?_relabelAll f items]
  | record kind fields => by
    cases kind with
    | json =>
      simp only [relabel, unhashable?, hashFormAll_relabelAll f fields]
      cases hashFormAll fields <;> rfl
    | _ => simp only [relabel, unhashable?, unhashableAmong?_relabelAll f fields]
  | list _ _ | set _ _ | map _ _ | view _ | buffer _ _ | object _ _ _ | stream _ _ | fault _ _ _ _
  | frozenSet _ | null | bool _ | int _ | float _ | nan _ | text _ | bytes _ | member _ => rfl

theorem unhashableAmong?_relabelAll (f : Cell → Cell) :
    ∀ vs : List Value, unhashableAmong? (relabelAll f vs) = unhashableAmong? vs
  | [] => rfl
  | v :: vs => by
    simp only [relabelAll, unhashableAmong?, unhashable?_relabel f v,
      unhashableAmong?_relabelAll f vs]

/-- The hashable form of a renamed value is the renamed one. -/
theorem hashForm_relabel (f : Cell → Cell) :
    ∀ v : Value, hashForm (v.relabel f) = (fun p => (p.1.relabel f, p.2)) <$> hashForm v
  | view es | map _ es => by
    simp only [relabel, hashForm, hashFormEntries_relabelEntries f es]
    cases hashFormEntries es <;> rfl
  | list _ items | tuple items => by
    simp only [relabel, hashForm, hashFormAll_relabelAll f items]
    cases hashFormAll items <;> rfl
  | set _ items | frozenSet items => by
    simp only [relabel, hashForm, hashFormMembers_relabelAll f items]
    cases hashFormMembers items <;> rfl
  | record kind fields => by
    cases kind with
    | json =>
      simp only [relabel, hashForm, hashFormAll_relabelAll f fields]
      cases hashFormAll fields <;> rfl
    | _ =>
      simp only [relabel, hashForm, unhashableAmong?_relabelAll f fields]
      rfl
  | buffer _ _ | object _ _ _ | stream _ _ | fault _ _ _ _ | null | bool _ | int _ | float _ | nan _
  | text _ | bytes _ | member _ => rfl

theorem hashFormAll_relabelAll (f : Cell → Cell) :
    ∀ vs : List Value, hashFormAll (relabelAll f vs) =
      (fun p => (relabelAll f p.1, p.2)) <$> hashFormAll vs
  | [] => rfl
  | v :: vs => by
    simp only [relabelAll, hashFormAll, hashForm_relabel f v, hashFormAll_relabelAll f vs]
    rcases hashForm v with _ | ⟨form, why⟩
    · rfl
    · cases hashFormAll vs <;> rfl

theorem hashFormMembers_relabelAll (f : Cell → Cell) :
    ∀ vs : List Value, hashFormMembers (relabelAll f vs) = relabelAll f <$> hashFormMembers vs
  | [] => rfl
  | v :: vs => by
    simp only [relabelAll, hashFormMembers, hashForm_relabel f v, hashFormMembers_relabelAll f vs]
    rcases hashForm v with _ | ⟨form, _ | why⟩
    · rfl
    · cases hashFormMembers vs <;> rfl
    · rfl

theorem hashFormEntries_relabelEntries (f : Cell → Cell) :
    ∀ es : List (Value × Value), hashFormEntries (relabelEntries f es) =
      relabelAll f <$> hashFormEntries es
  | [] => rfl
  | (k, v) :: es => by
    simp only [relabelEntries, hashFormEntries, hashForm_relabel f v,
      hashFormEntries_relabelEntries f es]
    rcases hashForm v with _ | ⟨form, _ | why⟩
    · rfl
    · cases hashFormEntries es <;> rfl
    · rfl

end

mutual

theorem hashKey_relabel (f : Cell → Cell) : ∀ v : Value, (v.relabel f).hashKey = v.hashKey.relabel f
  | tuple items => by simp only [relabel, hashKey, hashKeyAll_relabelAll f items]
  | record kind fields => by
    cases kind with
    | json =>
      simp only [relabel, hashKey, hashFormAll_relabelAll f fields]
      cases hashFormAll fields <;> rfl
    | _ => simp only [relabel, hashKey, hashKeyAll_relabelAll f fields]
  | list _ _ | set _ _ | map _ _ | view _ | buffer _ _ | object _ _ _ | stream _ _ | fault _ _ _ _
  | frozenSet _ | null | bool _ | int _ | float _ | nan _ | text _ | bytes _ | member _ => rfl

theorem hashKeyAll_relabelAll (f : Cell → Cell) :
    ∀ vs : List Value, hashKeyAll (relabelAll f vs) = relabelAll f (hashKeyAll vs)
  | [] => rfl
  | v :: vs => by
    simp only [relabelAll, hashKeyAll, hashKey_relabel f v, hashKeyAll_relabelAll f vs]

end

/-! ### Sets and mappings -/

section Collections

variable (hf : Function.Injective f)

include hf

/-- Renamed values are one key exactly if the values are. -/
theorem alike_relabel (a b : Value) : alike (a.relabel f) (b.relabel f) = alike a b := by
  simp only [alike, hashKey_relabel, same_relabel hf]

theorem insert_relabel (v : Value) (items : List Value) :
    insert (v.relabel f) (relabelAll f items) = relabelAll f <$> insert v items := by
  have hany : (relabelAll f items).any (alike (v.relabel f)) = items.any (alike v) := by
    rw [relabelAll_eq_map, List.any_map]
    exact congrArg items.any (funext fun w => alike_relabel hf v w)
  unfold insert
  rw [unhashable?_relabel, hany]
  cases v.unhashable? with
  | some e => rfl
  | none =>
    change Except.ok _ = Except.ok _
    split
    · rfl
    · simp only [relabelAll_eq_map, List.map_append, List.map_cons, List.map_nil]

/-- The set of renamed values is the renamed set. -/
theorem distinct_relabel (vs : List Value) :
    distinct (relabelAll f vs) = relabelAll f <$> distinct vs := by
  have hfold (items : List Value) :
      (relabelAll f vs).foldlM (fun items v => insert v items) (relabelAll f items) =
        relabelAll f <$> vs.foldlM (fun items v => insert v items) items := by
    induction vs generalizing items with
    | nil => rfl
    | cons v vs ih =>
      rw [relabelAll, List.foldlM_cons, List.foldlM_cons, insert_relabel hf]
      cases insert v items with
      | error e => rfl
      | ok items' => exact ih items'
  exact hfold []

theorem putEntry_relabel (k v : Value) (es : List (Value × Value)) :
    putEntry (k.relabel f) (v.relabel f) (relabelEntries f es) =
      relabelEntries f (putEntry k v es) := by
  induction es with
  | nil => rfl
  | cons e es ih =>
    obtain ⟨k', v'⟩ := e
    simp only [relabelEntries, putEntry, alike_relabel hf, ih]
    split <;> rfl

theorem put_relabel (k v : Value) (es : List (Value × Value)) :
    put (k.relabel f) (v.relabel f) (relabelEntries f es) = relabelEntries f <$> put k v es := by
  unfold put
  rw [unhashable?_relabel]
  cases k.unhashable? with
  | some e => rfl
  | none => exact congrArg Except.ok (putEntry_relabel hf k v es)

/-- The mapping of renamed pairs is the renamed mapping. -/
theorem entriesOf_relabel (es : List (Value × Value)) :
    entriesOf (relabelEntries f es) = relabelEntries f <$> entriesOf es := by
  have hfold (done : List (Value × Value)) :
      (relabelEntries f es).foldlM (fun es p => put p.1 p.2 es) (relabelEntries f done) =
        relabelEntries f <$> es.foldlM (fun es p => put p.1 p.2 es) done := by
    induction es generalizing done with
    | nil => rfl
    | cons e es ih =>
      obtain ⟨k, v⟩ := e
      rw [relabelEntries, List.foldlM_cons, List.foldlM_cons, put_relabel hf]
      cases put k v done with
      | error e => rfl
      | ok done' => exact ih done'
  exact hfold []

end Collections

end Value

end CredentialWrites
