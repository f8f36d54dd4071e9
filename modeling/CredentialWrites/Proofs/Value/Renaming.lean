import CredentialWrites.Proofs.Making

/-!
# Values under other names for their objects

Objects have no names of their own: with other cells in the place of its cells, a value is of the
same kind and has the same parts, and what is made of it differs in its cells only. Two computations
agree if they give values that correspond, or fail with the same fault.

* `Making.Agree` : two computations agree, and the states that they leave correspond.
* `Making.Follows` : the takings from streams correspond under a renaming.
* `Value.items_relabel`, `Value.agree_forEach` : the items of a renamed value.
-/

namespace CredentialWrites

namespace Making

variable {α α' β β' : Type} {m : Making α} {m' : Making α'} {s s' : State}
    {I : State → State → Prop}
  {Q Q' : α → α' → Prop} {R : β → β' → Prop}

/-- Two computations, each started in a state, agree: they give values that correspond or fail with
one fault, and the states that they leave correspond. -/
def Agree (m : Making α) (m' : Making α') (s s' : State) (I : State → State → Prop)
    (Q : α → α' → Prop) : Prop :=
  match (m s : Except Fault α × State), (m' s' : Except Fault α' × State) with
  | (.ok a, t), (.ok b, t') => I t t' ∧ Q a b
  | (.error e, t), (.error e', t') => I t t' ∧ e = e'
  | _, _ => False

/-- Two computations that agree either both give or both fail. -/
theorem agree_iff : m.Agree m' s s' I Q ↔
    (∃ a t b t', m.Gives s a t ∧ m'.Gives s' b t' ∧ I t t' ∧ Q a b) ∨
      ∃ e t t', m.Fails s e t ∧ m'.Fails s' e t' ∧ I t t' := by
  unfold Agree Gives Fails
  rcases (m s : Except Fault α × State) with ⟨e | a, t⟩ <;>
    rcases (m' s' : Except Fault α' × State) with ⟨e' | b, t'⟩ <;> simp [eq_comm, and_comm]

theorem agree_of_gives {a : α} {t : State} {b : α'} {t' : State} (h : m.Gives s a t)
    (h' : m'.Gives s' b t') (hI : I t t') (hQ : Q a b) : m.Agree m' s s' I Q :=
  agree_iff.2 (.inl ⟨a, t, b, t', h, h', hI, hQ⟩)

theorem agree_of_fails {e : Fault} {t t' : State} (h : m.Fails s e t) (h' : m'.Fails s' e t')
    (hI : I t t') : m.Agree m' s s' I Q :=
  agree_iff.2 (.inr ⟨e, t, t', h, h', hI⟩)

theorem Agree.mono (h : m.Agree m' s s' I Q) (hQ : ∀ a b, Q a b → Q' a b) :
    m.Agree m' s s' I Q' := by
  obtain ⟨a, t, b, t', ha, hb, hI, hab⟩ | ⟨e, t, t', he, he', hI⟩ := agree_iff.1 h
  · exact agree_of_gives ha hb hI (hQ a b hab)
  · exact agree_of_fails he he' hI

/-- What is said of two computations that agree may be said of what the first one gives. -/
theorem Agree.of_gives (h : m.Agree m' s s' I Q) :
    m.Agree m' s s' I fun a b => Q a b ∧ ∃ t, m.Gives s a t := by
  obtain ⟨a, t, b, t', ha, hb, hI, hab⟩ | ⟨e, t, t', he, he', hI⟩ := agree_iff.1 h
  · exact agree_of_gives ha hb hI ⟨hab, t, ha⟩
  · exact agree_of_fails he he' hI

theorem Agree.bind {f : α → Making β} {f' : α' → Making β'} (h : m.Agree m' s s' I Q)
    (hf : ∀ a b t t', I t t' → Q a b → (f a).Agree (f' b) t t' I R) :
    (m >>= f).Agree (m' >>= f') s s' I R := by
  obtain ⟨a, t, b, t', ha, hb, hI, hab⟩ | ⟨e, t, t', he, he', hI⟩ := agree_iff.1 h
  · obtain ⟨c, u, d, u', hc, hd, hI', hcd⟩ | ⟨e, u, u', he, he', hI'⟩ :=
      agree_iff.1 (hf a b t t' hI hab)
    · exact agree_of_gives (gives_bind.2 ⟨a, t, ha, hc⟩) (gives_bind.2 ⟨b, t', hb, hd⟩) hI' hcd
    · exact agree_of_fails (fails_bind.2 (.inr ⟨a, t, ha, he⟩))
        (fails_bind.2 (.inr ⟨b, t', hb, he'⟩)) hI'
  · exact agree_of_fails (fails_bind.2 (.inl he)) (fails_bind.2 (.inl he')) hI

theorem agree_pure {a : α} {b : α'} (hI : I s s') (hQ : Q a b) :
    (pure a : Making α).Agree (pure b) s s' I Q :=
  ⟨hI, hQ⟩

theorem agree_fail {f : Fault} (hI : I s s') :
    (fail f : Making α).Agree (fail f : Making α') s s' I Q :=
  ⟨hI, rfl⟩

/-- Two checks agree if they have corresponding results. -/
theorem agree_lift {e : Except Fault α} {e' : Except Fault α'} (hI : I s s')
    (hQ : ∀ a, e = .ok a → ∃ b, e' = .ok b ∧ Q a b) (hfault : ∀ f, e = .error f → e' = .error f) :
    (liftM e : Making α).Agree (liftM e') s s' I Q := by
  cases e with
  | ok a =>
    obtain ⟨b, rfl, hab⟩ := hQ a rfl
    exact ⟨hI, hab⟩
  | error f =>
    rw [hfault f rfl]
    exact ⟨hI, rfl⟩

/-- What two checks have in common if the results of one are the results of the other, renamed. -/
theorem agree_lift_map {e : Except Fault α} {g : α → α'} (hI : I s s')
    (hQ : ∀ a, e = .ok a → Q a (g a)) : (liftM e : Making α).Agree (liftM (g <$> e)) s s' I Q := by
  cases e with
  | ok a => exact ⟨hI, hQ a rfl⟩
  | error f => exact ⟨hI, rfl⟩

/-- The takings from streams correspond in states that correspond, and go on doing so. -/
structure Follows (f : Cell → Cell) (I : State → State → Prop) : Prop where
  takenFrom : ∀ {s s' : State} (c : Cell), I s s' → s'.takenFrom (f c) = s.takenFrom c
  take : ∀ {s s' : State} (c : Cell), I s s' → I (s.take c) (s'.take (f c))

theorem takenFrom_take (s : State) (c d : Cell) :
    (s.take c).takenFrom d = if d = c then s.takenFrom c + 1 else s.takenFrom d := by
  unfold State.takenFrom State.take
  by_cases h : d = c
  · subst h
    simp [State.takenFrom]
  · have hne : (d == c) = false := by simpa using h
    simp only [List.lookup_cons, hne, if_neg h]
    congr 1
    -- what was taken from other streams is kept
    induction s.taken with
    | nil => rfl
    | cons t taken ih =>
      obtain ⟨e, n⟩ := t
      by_cases he : e = c
      · have hde : (d == e) = false := by simpa [he] using h
        simpa [List.filter_cons, he, List.lookup_cons, hne] using ih
      · simp only [List.filter_cons, he, ne_eq, not_false_eq_true, decide_true, if_true,
          List.lookup_cons]
        cases d == e
        · exact ih
        · rfl

/-- The takings correspond as long as they do, if no two cells get one name. -/
theorem follows_takenFrom {f : Cell → Cell} (hf : Function.Injective f) :
    Follows f fun s s' => ∀ c, s'.takenFrom (f c) = s.takenFrom c where
  takenFrom := fun c h => h c
  take := fun c h d => by
    simp only [takenFrom_take, hf.eq_iff, h]

end Making

namespace Value

open Making

variable {f : Cell → Cell}

theorem relabelAll_eq_map (vs : List Value) : relabelAll f vs = vs.map (relabel f) := by
  induction vs with
  | nil => rfl
  | cons v vs ih => rw [relabelAll, ih, List.map_cons]

theorem relabelEntries_eq_map (es : List (Value × Value)) :
    relabelEntries f es = es.map fun e => (e.1.relabel f, e.2.relabel f) := by
  induction es with
  | nil => rfl
  | cons e es ih =>
    obtain ⟨k, v⟩ := e
    rw [relabelEntries, ih, List.map_cons]

theorem relabelAttrs_eq_map (attrs : List (String × Value)) :
    relabelAttrs f attrs = attrs.map fun a => (a.1, a.2.relabel f) := by
  induction attrs with
  | nil => rfl
  | cons a attrs ih =>
    obtain ⟨name, v⟩ := a
    rw [relabelAttrs, ih, List.map_cons]

/-! ### Kinds and texts -/

@[simp] theorem kindName_relabel (v : Value) : (v.relabel f).kindName = v.kindName := by
  cases v <;> rfl

@[simp] theorem word?_relabel (v : Value) : (v.relabel f).word? = v.word? := by
  cases v <;> rfl

/-! ### Items -/

theorem fieldsOf_relabelAttrs (kind : ObjectKind) (attrs : List (String × Value)) :
    fieldsOf kind (relabelAttrs f attrs) = relabelAttrs f (fieldsOf kind attrs) := by
  simp only [fieldsOf, relabelAttrs_eq_map, List.filter_map]
  rfl

theorem relabelAll_texts (cs : List Char) :
    relabelAll f (cs.map fun c => text c.toString) = cs.map fun c => text c.toString := by
  simp only [relabelAll_eq_map, List.map_map]
  rfl

theorem relabelAll_byteItems (bs : List UInt8) : relabelAll f (byteItems bs) = byteItems bs := by
  simp only [byteItems, relabelAll_eq_map, List.map_map]
  rfl

/-- A renamed value yields renamed items. -/
theorem items_relabel (v : Value) : (v.relabel f).items = relabelAll f <$> v.items := by
  cases v with
  | text s => exact congrArg Except.ok (relabelAll_texts s.toList).symm
  | bytes bs | buffer c bs => exact congrArg Except.ok (relabelAll_byteItems bs).symm
  | tuple vs | frozenSet vs | list c vs | set c vs | stream c vs => rfl
  | view es => simp [relabel, items, relabelAll_eq_map, relabelEntries_eq_map]
  | map c es => simp [relabel, items, relabelAll_eq_map, relabelEntries_eq_map]
  | object kind c attrs =>
    simp only [relabel, items, fieldsOf_relabelAttrs]
    split
    · simp [relabelAll_eq_map, relabelAttrs_eq_map, relabel]
    · rfl
  | member m =>
    simp only [relabel, items]
    split
    · exact congrArg Except.ok (relabelAll_texts _).symm
    · rfl
  | null | bool _ | int _ | float _ | nan _ | record _ _ | fault _ _ _ _ => rfl

/-! ### What is made of the items -/

section Items

variable {α α' : Type} {s s' : State} {I : State → State → Prop} {Q : α → α' → Prop}
  {g : Value → Making α} {g' : Value → Making α'}

theorem agree_take (h : Follows f I) (c : Cell) (hI : I s s') :
    (take c).Agree (take (f c)) s s' I fun _ _ => True :=
  ⟨h.take c hI, trivial⟩

theorem agree_each {vs : List Value} (hI : I s s')
    (hg : ∀ v ∈ vs, ∀ t t', I t t' → (g v).Agree (g' (v.relabel f)) t t' I Q) :
    (each g vs).Agree (each g' (relabelAll f vs)) s s' I (List.Forall₂ Q) := by
  induction vs generalizing s s' with
  | nil => exact agree_pure hI .nil
  | cons v vs ih =>
    rw [List.forall_mem_cons] at hg
    refine (hg.1 s s' hI).bind fun a b t t' hI' hab => ?_
    refine (ih hI' hg.2).bind fun as bs u u' hI'' has => ?_
    exact agree_pure hI'' (.cons hab has)

theorem agree_eachTaken (h : Follows f I) {c : Cell} {vs : List Value} (hI : I s s')
    (hg : ∀ v ∈ vs, ∀ t t', I t t' → (g v).Agree (g' (v.relabel f)) t t' I Q) :
    (eachTaken c g vs).Agree (eachTaken (f c) g' (relabelAll f vs)) s s' I (List.Forall₂ Q) := by
  induction vs generalizing s s' with
  | nil => exact agree_pure hI .nil
  | cons v vs ih =>
    rw [List.forall_mem_cons] at hg
    refine (agree_take h c hI).bind fun _ _ t t' hIt _ => ?_
    refine (hg.1 t t' hIt).bind fun a b u u' hI' hab => ?_
    refine (ih hI' hg.2).bind fun as bs r r' hI'' has => ?_
    exact agree_pure hI'' (.cons hab has)

/-- What corresponding computations make of the items of a value that is no stream corresponds. -/
theorem agree_forEach_of_items {v : Value} (hv : ∀ c vs, v ≠ stream c vs) (hI : I s s')
    (hg : ∀ vs, v.items = .ok vs → ∀ w ∈ vs, ∀ t t', I t t' →
      (g w).Agree (g' (w.relabel f)) t t' I Q) :
    (v.forEach g).Agree ((v.relabel f).forEach g') s s' I (List.Forall₂ Q) := by
  have hitems : (do each g (← liftM v.items) : Making (List α)).Agree
      (do each g' (← liftM (v.relabel f).items)) s s' I (List.Forall₂ Q) := by
    rw [items_relabel]
    refine (agree_lift_map (Q := fun vs vs' => v.items = .ok vs ∧ vs' = relabelAll f vs) hI
      fun _ hvs => ⟨hvs, rfl⟩).bind ?_
    rintro vs _ t t' hI' ⟨hvs, rfl⟩
    exact agree_each hI' (hg vs hvs)
  cases v with
  | stream c vs => exact absurd rfl (hv c vs)
  | _ => exact hitems

/-- What corresponding computations make of the items of a value and of the renamed value
corresponds. -/
theorem agree_forEach (h : Follows f I) {v : Value} (hI : I s s')
    (hg : ∀ w t t', I t t' → (g w).Agree (g' (w.relabel f)) t t' I Q) :
    (v.forEach g).Agree ((v.relabel f).forEach g') s s' I (List.Forall₂ Q) := by
  -- of a stream as many items are left as of the renamed one
  have hstream (c : Cell) (vs : List Value) :
      ((stream c vs).forEach g).Agree ((stream (f c) (relabelAll f vs)).forEach g') s s' I
        (List.Forall₂ Q) := by
    have hdrop : (relabelAll f vs).drop (s'.takenFrom (f c)) =
        relabelAll f (vs.drop (s.takenFrom c)) := by
      rw [h.takenFrom c hI, relabelAll_eq_map, relabelAll_eq_map, List.map_drop]
    change (eachTaken c g (vs.drop (s.takenFrom c))).Agree
      (eachTaken (f c) g' ((relabelAll f vs).drop (s'.takenFrom (f c)))) s s' I _
    rw [hdrop]
    exact agree_eachTaken h hI fun w _ => hg w
  cases v with
  | stream c vs => exact hstream c vs
  | _ => exact agree_forEach_of_items (by simp) hI fun _ _ w _ => hg w

theorem relabelAll_of_forall₂ {vs vs' : List Value}
    (h : List.Forall₂ (fun v w => w = v.relabel f) vs vs') : vs' = relabelAll f vs := by
  induction h with
  | nil => rfl
  | cons h _ ih => rw [h, ih, relabelAll]

/-- The items that are taken from a value and from the renamed value correspond. -/
theorem agree_takeItems (h : Follows f I) {v : Value} (hI : I s s') :
    v.takeItems.Agree (v.relabel f).takeItems s s' I fun vs vs' => vs' = relabelAll f vs :=
  (agree_forEach (Q := fun w w' => w' = w.relabel f) h hI fun _ _ _ hI' => agree_pure hI' rfl).mono
    fun _ _ => relabelAll_of_forall₂

/-- The items that are taken from a value that is no stream correspond to those of the renamed
one. -/
theorem agree_takeItems_of_items {v : Value} (hv : ∀ c vs, v ≠ stream c vs) (hI : I s s') :
    v.takeItems.Agree (v.relabel f).takeItems s s' I fun vs vs' => vs' = relabelAll f vs :=
  (agree_forEach_of_items (Q := fun w w' => w' = w.relabel f) hv hI fun _ _ _ _ _ _ hI' =>
    agree_pure hI' rfl).mono fun _ _ => relabelAll_of_forall₂

end Items

end Value

end CredentialWrites
