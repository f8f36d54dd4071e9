import CredentialWrites.Proofs.Request.InSession
import CredentialWrites.Proofs.Value.Scope

/-!
# What a builder takes from its arguments

An act on a builder may give it a document or more permissions. The document is a snapshot, which is
made of new objects and of the keys of the argument; the permissions are those of the argument.
Nothing else is taken over.

* `RequestBuilder.Gains` : what a builder gains from its arguments.
* `RequestBuilder.gains_perform` : an act on a builder.
* `RequestBuilder.Within` : all objects that a builder holds are within a scope.
-/

namespace CredentialWrites

open Making Value

theorem CredentialValue.within_toValue {P : Cell → Prop} {o : Option CredentialValue}
    (h : ∀ es, o = some (.json es) → WithinEntries P es) :
    ((o.map CredentialValue.toValue).getD .null).Within P := by
  rcases o with _ | w | es
  · trivial
  · exact ⟨within_ofWord w, trivial⟩
  · exact ⟨h es rfl, trivial⟩

theorem CredentialName.within_toValue {P : Cell → Prop} (o : Option CredentialName) :
    ((o.map CredentialName.toValue).getD .null).Within P := by
  cases o with
  | none => trivial
  | some n => exact ⟨within_ofWord n.word, trivial⟩

theorem Grant.withinAll_toValue {P : Cell → Prop} {gs : List Grant}
    (h : ∀ g ∈ gs, g.toValue.Within P) : WithinAll P (gs.map Grant.toValue) := by
  refine withinAll_iff.2 fun v hv => ?_
  obtain ⟨g, hg, rfl⟩ := List.mem_map.1 hv
  exact h g hg

/-- A request has no objects but those of its document and of its permissions. -/
theorem Request.within_toValue {P : Cell → Prop} {r : Request}
    (hvalue : ∀ es, r.value = some (.json es) → WithinEntries P es)
    (hpermissions : ∀ g ∈ r.permissions, g.toValue.Within P) : r.toValue.Within P :=
  ⟨trivial, CredentialName.within_toValue r.name, CredentialValue.within_toValue hvalue,
    Grant.withinAll_toValue hpermissions, trivial⟩

namespace RequestBuilder

variable {s t : State} {P : Nat → Cell → Prop} {start : Nat} {b b' : RequestBuilder}
    {R : Cell → Prop}

/-- What a builder gains between two moments from arguments whose objects have cells of a kind. -/
structure Gains (R : Cell → Prop) (n n' : Nat) (b b' : RequestBuilder) : Prop where
  le : n ≤ n'
  value : ∀ es, b'.value = some (.json es) →
    b.value = some (.json es) ∨ OwnEntries (MadeSince n n') es ∧ EntryKeysWithin R es
  permissions : ∀ gs, b'.permissions = some gs → ∀ g ∈ gs,
    (∃ old, b.permissions = some old ∧ g ∈ old) ∨ g.toValue.Within R

theorem Gains.refl {n n' : Nat} (h : n ≤ n') : Gains R n n' b b :=
  ⟨h, fun _ hes => .inl hes, fun _ hgs _ hg => .inl ⟨_, hgs, hg⟩⟩

/-- A builder that gets no document and no permissions gains nothing. -/
theorem Gains.of_rest {n n' : Nat} (h : n ≤ n')
    (hvalue : ∀ es, b'.value = some (.json es) → b.value = b'.value)
    (hpermissions : b'.permissions = b.permissions) : Gains R n n' b b' where
  le := h
  value := fun es hes => .inl ((hvalue es hes).trans hes)
  permissions := fun gs hgs _ hg => .inl ⟨gs, hpermissions ▸ hgs, hg⟩

theorem gains_setValue {n n' : Nat} {es : List (Value × Value)} (h : n ≤ n')
    (hown : OwnEntries (MadeSince n n') es) (hkeys : EntryKeysWithin R es) :
    Gains R n n' b (b.setValue (.json es)).1 where
  le := h
  value := by
    rintro _ ⟨⟩
    exact .inr ⟨hown, hkeys⟩
  permissions := fun gs hgs g hg => .inl ⟨gs, hgs, hg⟩

theorem gains_addGrants {n n' : Nat} {gs : List Grant} (h : n ≤ n')
    (hgs : ∀ g ∈ gs, g.toValue.Within R) : Gains R n n' b (b.addGrants gs) where
  le := h
  value := fun es hes => .inl hes
  permissions := by
    rintro _ ⟨⟩ g hg
    rcases List.mem_append.1 hg with hg | hg
    · cases hb : b.permissions with
      | none =>
        rw [hb] at hg
        cases hg
      | some old =>
        rw [hb] at hg
        exact .inl ⟨old, rfl, hg⟩
    · exact .inr (hgs g hg)

theorem within_grant {P : Cell → Prop} {v : Value} {g : Grant} (hv : v.Within P)
    (h : Grant.ofValue v = .ok g) : g.toValue.Within P := by
  unfold Grant.ofValue at h
  split at h <;> cases h
  exact hv

theorem within_grants {P : Cell → Prop} {vs : List Value} {gs : List Grant}
    (hvs : ∀ v ∈ vs, ∀ g, Grant.ofValue v = .ok g → g.toValue.Within P)
    (h : vs.mapM Grant.ofValue = .ok gs) : ∀ g ∈ gs, g.toValue.Within P := by
  induction vs generalizing gs with
  | nil =>
    cases h
    simp
  | cons v vs ih =>
    rw [List.mapM_cons] at h
    obtain ⟨g, hg, h⟩ := Except.bind_eq_ok.1 h
    obtain ⟨gs', hgs, h⟩ := Except.bind_eq_ok.1 h
    rw [List.forall_mem_cons] at hvs
    rw [← Except.pure_eq_ok.1 h, List.forall_mem_cons]
    exact ⟨hvs.1 g hg, ih hvs.2 hgs⟩

/-- What a builder may take over from an argument has cells of a kind: the keys of a document, a
permission, and the permissions among its items. -/
structure Offers (R : Cell → Prop) (v : Value) : Prop where
  keys : v.KeysWithin R
  grant : ∀ g, Grant.ofValue v = .ok g → g.toValue.Within R
  grants : ∀ vs, v.items = .ok vs → ∀ w ∈ vs, ∀ g, Grant.ofValue w = .ok g → g.toValue.Within R

theorem Offers.of_within {v : Value} (hv : v.Within R) : Offers R v where
  keys := hv.keysWithin
  grant := fun _ => within_grant hv
  grants := fun _ hvs w hw _ => within_grant (withinAll_iff.1 (hv.items hvs) w hw)

/-! ### Acts -/

/-- The permissions that are taken from a value are among its items. -/
theorem within_of_gives_grantsOf {v : Value} {gs : List Grant} (hv : Offers R v)
    (h : (grantsOf v).Gives s gs t) : ∀ g ∈ gs, g.toValue.Within R := by
  obtain ⟨w, u, hw, h⟩ := gives_bind.1 h
  obtain ⟨hpresent, rfl⟩ := gives_lift.1 hw
  obtain rfl : v = w := (present_eq_ok_iff.1 hpresent).2
  obtain ⟨items, u, hitems, h⟩ := gives_bind.1 h
  have htaken := (yields_takeItems (s := s) hv.grants).2 items u hitems
  exact within_grants htaken (gives_lift.1 h).1

/-- What an accepted call gives to the builder. -/
theorem gains_of_gives_set {c : Call} {records : List LogRecord}
    (hc : ∀ v ∈ (Act.call c).args, Offers R v) (h : (b.set c).Gives s (b', records) t) :
    Gains R s.moment t.moment b b' := by
  have hle : s.moment ≤ t.moment := (yields_set b c s).moment_le h
  cases c with
  | passwordValue v =>
    obtain ⟨w, u, -, h⟩ := gives_bind.1 h
    obtain ⟨h, -⟩ := gives_pure.1 h
    cases h
    exact .of_rest hle (by rintro _ ⟨⟩) rfl
  | jsonValue v =>
    obtain ⟨es, u, hes, h⟩ := gives_bind.1 h
    obtain ⟨hmapping, rfl⟩ := gives_lift.1 hes
    obtain ⟨value, u', hvalue, h⟩ := gives_bind.1 h
    obtain ⟨es', u'', hfreeze, hvalue⟩ := gives_bind.1 hvalue
    obtain ⟨rfl, rfl⟩ := gives_pure.1 hvalue
    obtain ⟨h, rfl⟩ := gives_pure.1 h
    cases h
    have hold := (hc v (by simp [Act.args])).keys.entries? (mapping_eq_ok_iff.1 hmapping)
    have hown := (yields_freezeEntries (admits_madeSince s.moment) es (Nat.le_refl _)).2 es' _
      hfreeze
    have hkeys := entryKeysWithin_of_gives_freezeEntries hold hfreeze
    exact gains_setValue hle hown hkeys
  | name v =>
    obtain ⟨n, u, -, h⟩ := gives_bind.1 h
    obtain ⟨h, -⟩ := gives_pure.1 h
    cases h
    exact .of_rest hle (fun _ _ => rfl) rfl
  | overwrite v =>
    obtain ⟨o, u, -, h⟩ := gives_bind.1 h
    obtain ⟨h, -⟩ := gives_pure.1 h
    cases h
    exact .of_rest hle (fun _ _ => rfl) rfl
  | additionalPermission v =>
    obtain ⟨g, u, hg, h⟩ := gives_bind.1 h
    obtain ⟨hgrant, rfl⟩ := gives_lift.1 hg
    obtain ⟨h, rfl⟩ := gives_pure.1 h
    cases h
    refine gains_addGrants hle fun g' hg' => ?_
    rw [List.mem_singleton.1 hg']
    exact (hc v (by simp [Act.args])).grant g hgrant
  | additionalPermissions v =>
    obtain ⟨gs, u, hgs, h⟩ := gives_bind.1 h
    obtain ⟨h, rfl⟩ := gives_pure.1 h
    cases h
    exact gains_addGrants hle (within_of_gives_grantsOf (hc v (by simp [Act.args])) hgs)

/-- What an act gives to the builder. -/
theorem gains_perform {act : Act} {answer : Answer} {records : List LogRecord}
    (hact : ∀ v ∈ act.args, Offers R v) (h : b.perform act s = (b', answer, records, t)) :
    Gains R s.moment t.moment b b' := by
  cases act with
  | build =>
    cases h
    exact .refl (Nat.le_refl _)
  | call c =>
    dsimp only [perform] at h
    split at h
    · rename_i b'' records' made' hset
      cases h
      exact gains_of_gives_set hact hset
    · rename_i f made' hset
      cases h
      have hle := (yields_set b c s).1
      rw [hset] at hle
      exact .refl hle

/-- Only a build answers with a request, which is that of the builder. -/
theorem eq_of_built {act : Act} {r : Request} {records : List LogRecord}
    (h : b.perform act s = (b', .built r, records, t)) :
    act = .build ∧ b' = b ∧ r = b.build ∧ t = s := by
  cases act with
  | build =>
    cases h
    exact ⟨rfl, rfl, rfl, rfl⟩
  | call c =>
    dsimp only [perform] at h
    split at h <;> cases h

/-! ### Builders within a scope -/

/-- All objects that a builder holds have cells of a kind. -/
structure Within (P : Cell → Prop) (b : RequestBuilder) : Prop where
  value : ∀ es, b.value = some (.json es) → WithinEntries P es
  permissions : ∀ gs, b.permissions = some gs → ∀ g ∈ gs, g.toValue.Within P

theorem Within.mono {P Q : Cell → Prop} (hPQ : ∀ c, P c → Q c) (hb : b.Within P) : b.Within Q where
  value := fun es hes => (hb.value es hes).mono hPQ
  permissions := fun gs hgs g hg => (hb.permissions gs hgs g hg).mono hPQ

/-- A document that was made between two moments has cells within the scope. -/
theorem withinEntries_of_made (hP : Admits P start) {n n' : Nat} (hn : start ≤ n)
    {es : List (Value × Value)} (hown : OwnEntries (MadeSince n n') es)
    (hkeys : EntryKeysWithin (P n') es) :
    WithinEntries (P n') es := by
  refine (hown.mono fun c hc => ?_).within hkeys
  obtain ⟨now, old, rfl, hstart, hlt⟩ := hc
  exact hP.later hlt (hP.made old (Nat.le_trans hn hstart))

theorem Gains.within {n n' : Nat} (h : Gains (P n) n n' b b') (hP : Admits P start) (hn : start ≤ n)
    (hb : b.Within (P n)) : b'.Within (P n') where
  value := fun es hes => by
    rcases h.value es hes with hold | ⟨hown, hkeys⟩
    · exact hP.withinEntries h.le (hb.value es hold)
    · exact withinEntries_of_made hP hn hown (hkeys.mono fun _ => hP.later h.le)
  permissions := fun gs hgs g hg => by
    rcases h.permissions gs hgs g hg with ⟨old, hold, hg⟩ | hnew
    · exact hP.within h.le (hb.permissions old hold g hg)
    · exact hP.within h.le hnew

theorem within_of_mapM_ofValue? {P : Cell → Prop} {vs : List Value} {gs : List Grant}
    (hvs : WithinAll P vs) (h : vs.mapM Grant.ofValue? = some gs) : ∀ g ∈ gs, g.toValue.Within P :=
  within_grants (fun v hv _ => within_grant (withinAll_iff.1 hvs v hv)) (grants_eq_ok_iff.2 h)

/-- A builder has no objects but those of its attributes. -/
theorem within_of_ofAttrs? {P : Cell → Prop} {attrs : List (String × Value)}
    (hattrs : WithinAttrs P attrs) (h : ofAttrs? attrs = some b) : b.Within P := by
  obtain ⟨v₁, -, h⟩ := Option.bind_eq_some_iff.1 h
  obtain ⟨name, -, h⟩ := Option.bind_eq_some_iff.1 h
  obtain ⟨v₂, -, h⟩ := Option.bind_eq_some_iff.1 h
  obtain ⟨overwrite, -, h⟩ := Option.bind_eq_some_iff.1 h
  obtain ⟨v₃, hv₃, h⟩ := Option.bind_eq_some_iff.1 h
  obtain ⟨value, hvalue, h⟩ := Option.bind_eq_some_iff.1 h
  obtain ⟨v₄, hv₄, h⟩ := Option.bind_eq_some_iff.1 h
  obtain ⟨permissions, hpermissions, h⟩ := Option.bind_eq_some_iff.1 h
  cases h
  constructor
  · intro es hes
    have hv := hattrs.lookup hv₃
    change value = some (.json es) at hes
    subst hes
    unfold valueOf? at hvalue
    split at hvalue
    · cases hvalue
    · obtain ⟨w, -, h⟩ := Option.map_eq_some_iff.1 hvalue
      cases h
    · cases hvalue
      exact hv.1
    · cases hvalue
  · intro gs hgs
    have hv := hattrs.lookup hv₄
    change permissions = some gs at hgs
    subst hgs
    unfold grantsOf? at hpermissions
    split at hpermissions
    · cases hpermissions
    · obtain ⟨gs', hgs', h⟩ := Option.map_eq_some_iff.1 hpermissions
      cases h
      exact within_of_mapM_ofValue? hv.2 hgs'
    · cases hpermissions

theorem within_value {P : Cell → Prop} (hb : b.Within P) :
    ((b.value.map CredentialValue.toValue).getD .null).Within P :=
  CredentialValue.within_toValue hb.value

/-- The list of a builder is new, or it is the one that was there. -/
theorem yields_storeList (hP : Admits P start) (hs : start ≤ s.moment) {old : Option Value}
    {items : Option (List Value)} (hold : ∀ v, old = some v → v.Within (P s.moment))
    (hitems : ∀ vs, items = some vs → WithinAll (P s.moment) vs) :
    (PermissionBuilder.storeList old items).Yields s fun n v => v.Within (P n) := by
  unfold PermissionBuilder.storeList
  split
  · exact yields_pure trivial
  · rename_i vs
    split
    · rename_i c vs'
      exact yields_pure ⟨(hold _ rfl).1, hitems vs rfl⟩
    · exact yields_list hP hs (hitems vs rfl)

theorem yields_store (hP : Admits P start) (hs : start ≤ s.moment) {attrs : List (String × Value)}
    (hattrs : WithinAttrs (P s.moment) attrs) (hb : b.Within (P s.moment)) :
    (b.store attrs).Yields s fun n attrs => WithinAttrs (P n) attrs := by
  have hgrants : ∀ vs, (b.permissions.map fun gs : List Grant => gs.map Grant.toValue) = some vs →
      WithinAll (P s.moment) vs := by
    intro vs hvs
    obtain ⟨gs, hgs, rfl⟩ := Option.map_eq_some_iff.1 hvs
    exact Grant.withinAll_toValue (hb.permissions gs hgs)
  refine (yields_storeList hP hs (fun v hv => hattrs.lookup hv)
    hgrants).bind fun list t hle hlist => ?_
  have hattrs := hP.withinAttrs hle hattrs
  have hoverwrite : (Value.bool b.overwrite).Within (P t.moment) := trivial
  have hvalue := hP.within hle (within_value hb)
  exact yields_pure ((((hattrs.putAttr (CredentialName.within_toValue b.name)).putAttr
    hoverwrite).putAttr hvalue).putAttr hlist)

/-- The request of a builder has no objects but those of the builder. -/
theorem within_build {P : Cell → Prop} (hb : b.Within P) : b.build.toValue.Within P := by
  refine Request.within_toValue hb.value fun g hg => ?_
  cases hgs : b.permissions with
  | none => simp [build, hgs] at hg
  | some gs => exact hb.permissions gs hgs g (by simpa [build, hgs] using hg)

end RequestBuilder

end CredentialWrites
