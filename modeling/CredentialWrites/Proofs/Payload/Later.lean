import CredentialWrites.Proofs.Payload.Dump
import CredentialWrites.Proofs.Payload.Scope
import CredentialWrites.Proofs.Value.Later

/-!
# Payloads that are made at another time

A request is rendered to the same mapping at all times, but for the names of the objects in it,
which are new every time.

* `Payload.agree_dump` : dumps that are made at two times.
* `Payload.agree_ofRequest` : payloads of a request.
* `Payload.agree_requestToDict` : mappings of a request.
-/

namespace CredentialWrites

namespace Payload

open Making Value

variable {f : Cell → Cell} {I : State → State → Prop} {s s' : State}

/-! ### Shapes and fields -/

theorem fits_relabel (shape : FieldShape) (v : Value) :
    shape.fits (v.relabel f) = shape.fits v := by
  cases shape <;> cases v <;> rfl

theorem relabelEntries_entriesOf (fields : List (String × Value)) :
    relabelEntries f (entriesOf fields) = entriesOf (relabelAttrs f fields) := by
  simp only [entriesOf, relabelEntries_eq_map, relabelAttrs_eq_map, List.map_map]
  rfl

theorem relabelEntries_namedEntries (names : List String) (vs : List Value) :
    relabelEntries f (namedEntries names vs) = namedEntries names (relabelAll f vs) := by
  induction names generalizing vs with
  | nil => rfl
  | cons name names ih =>
    cases vs with
    | nil => rfl
    | cons v vs => exact congrArg (_ :: ·) (ih vs)

/-! ### Dumps -/

/-- Mappings of fields that correspond. -/
theorem agree_mapOf (h : Tracks f I) {m m' : Making (List (String × Value))}
    (hm : m.Agree m' s s' I fun fields fields' => fields' = relabelAttrs f fields) :
    (do Making.map (entriesOf (← m)) : Making Value).Agree (do Making.map (entriesOf (← m'))) s s' I
      fun v w => w = v.relabel f := by
  refine hm.bind fun fields fields' t t' hI hfields => ?_
  rw [hfields, ← relabelEntries_entriesOf]
  exact agree_map h hI _

/-- The items of sets of values that correspond. -/
theorem agree_distinct (h : Tracks f I) (vs : List Value) (hI : I s s') :
    (liftM (distinct vs) : Making (List Value)).Agree (liftM (distinct (relabelAll f vs))) s s' I
      fun members members' => members' = relabelAll f members := by
  rw [distinct_relabel h.injective]
  exact agree_lift_map hI fun _ _ => rfl

/-- What is nested too deeply is kept. -/
theorem agree_kept {shape : FieldShape} {level : Nat} {v : Value} {m m' : Making Value}
    (hI : I s s') (h : m.Agree m' s s' I fun w w' => w' = w.relabel f) :
    (if !shape.fits v && maxLevel < level then pure v else m).Agree
      (if !shape.fits (v.relabel f) && maxLevel < level then pure (v.relabel f) else m') s s' I
      fun w w' => w' = w.relabel f := by
  rw [fits_relabel]
  split
  · exact agree_pure hI rfl
  · exact h

mutual

/-- Dumps of a value and of the renamed value, made at two times. -/
theorem agree_dump (h : Tracks f I) :
    ∀ (shape : FieldShape) (level : Nat) (v : Value) {s s' : State}, I s s' →
    (dump shape level v).Agree (dump shape level (v.relabel f)) s s' I fun w w' => w' = w.relabel f
  | shape, level, .map c es, s, s', hI => by
    rw [relabel, dump, dump]
    refine agree_kept (v := .map c es) hI ?_
    refine (agree_dumpEntries h (level + 1) es hI).bind fun ds ds' t t' hI' hds => ?_
    rw [hds, entriesOf_relabel h.injective]
    refine (agree_lift_map (Q := fun es es' => es' = relabelEntries f es) hI' fun _ _ => rfl).bind
      ?_
    rintro es _ u u' hI'' rfl
    exact agree_map h hI'' es
  | shape, level, .list c items, s, s', hI => by
    rw [relabel, dump, dump]
    refine agree_kept (v := .list c items) hI ?_
    have hlevel : shape.partLevel (.list (f c) []) level = shape.partLevel (.list c []) level := by
      cases shape <;> rfl
    rw [hlevel]
    refine (agree_dumpAll h _ _ items hI).bind fun vs vs' t t' hI' hvs => ?_
    rw [hvs]
    exact agree_list h hI' vs
  | shape, level, .tuple items, s, s', hI => by
    rw [relabel, dump, dump]
    refine agree_kept (v := .tuple items) hI ?_
    refine (agree_dumpAll h _ _ items hI).bind fun vs vs' t t' hI' hvs => agree_pure hI' ?_
    rw [hvs, relabel]
  | shape, level, .set c items, s, s', hI => by
    rw [relabel, dump, dump]
    refine agree_kept (v := .set c items) hI ?_
    refine (agree_dumpAll h _ _ items hI).bind fun vs vs' t t' hI' hvs => ?_
    rw [hvs]
    refine (agree_fresh h hI').bind fun c c' u u' hI'' hc => ?_
    refine (agree_distinct h vs hI'').bind fun members members' r r' hI₃ hmembers =>
      agree_pure hI₃ ?_
    rw [hc, hmembers, relabel]
  | shape, level, .frozenSet items, s, s', hI => by
    rw [relabel, dump, dump]
    refine agree_kept (v := .frozenSet items) hI ?_
    refine (agree_dumpAll h _ _ items hI).bind fun vs vs' t t' hI' hvs => ?_
    rw [hvs]
    refine (agree_distinct h vs hI').bind fun members members' u u' hI'' hmembers =>
      agree_pure hI'' ?_
    rw [hmembers, relabel]
  | shape, level, .record kind fields, s, s', hI => by
    rw [relabel, dump, dump]
    refine agree_kept (v := .record kind fields) hI ?_
    split
    · exact agree_mapOf h (agree_dumpGrant h level kind fields hI)
    · refine (agree_dumpAll h _ _ fields hI).bind fun vs vs' t t' hI' hvs => ?_
      rw [hvs, ← relabelEntries_namedEntries]
      exact agree_map h hI' _
  | shape, level, .member m, s, s', hI => by
    rw [relabel, dump]
    refine agree_kept (v := .member m) hI ?_
    split
    · exact agree_map h hI []
    · exact agree_pure hI rfl
  | shape, level, .fault k c args attrs, s, s', hI => by
    rw [relabel, dump, dump]
    refine agree_kept (v := .fault k c args attrs) hI ?_
    split
    · exact agree_mapOf h (agree_dumpFields h _ level attrs hI)
    · exact agree_pure hI rfl
  | shape, level, .object kind c attrs, s, s', hI => by
    rw [relabel, dump, dump]
    refine agree_kept (v := .object kind c attrs) hI ?_
    split
    · exact agree_mapOf h (agree_dumpFields h _ level attrs hI)
    · split
      · exact agree_mapOf h (agree_dumpFields h kind _ attrs hI)
      · exact agree_pure hI rfl
  | shape, level, .view es, s, s', hI => by
    simp only [relabel, dump]
    exact agree_kept (v := .view es) hI (agree_pure hI rfl)
  | shape, level, .buffer c bs, s, s', hI => by
    simp only [relabel, dump]
    exact agree_kept (v := .buffer c bs) hI (agree_pure hI rfl)
  | shape, level, .stream c vs, s, s', hI => by
    simp only [relabel, dump]
    exact agree_kept (v := .stream c vs) hI (agree_pure hI rfl)
  | shape, level, .null, s, s', hI | shape, level, .bool _, s, s', hI
  | shape, level, .int _, s, s', hI
  | shape, level, .float _, s, s', hI | shape, level, .nan _, s, s', hI
  | shape, level, .text _, s, s', hI | shape, level, .bytes _, s, s', hI => by
    simp only [relabel, dump]
    split <;> exact agree_pure hI rfl

theorem agree_dumpAll (h : Tracks f I) : ∀ (shape : FieldShape) (level : Nat) (vs : List Value)
    {s s' : State}, I s s' →
      (dumpAll shape level vs).Agree (dumpAll shape level (relabelAll f vs)) s s' I
        fun ws ws' => ws' = relabelAll f ws
  | _, _, [], _, _, hI => agree_pure hI rfl
  | shape, level, v :: vs, s, s', hI => by
    rw [relabelAll, dumpAll, dumpAll]
    refine (agree_dump h shape level v hI).bind fun w w' t t' hI' hw => ?_
    refine (agree_dumpAll h shape level vs hI').bind fun ws ws' u u' hI'' hws => agree_pure hI'' ?_
    rw [hw, hws, relabelAll]

theorem agree_dumpEntries (h : Tracks f I) :
    ∀ (level : Nat) (es : List (Value × Value)) {s s' : State}, I s s' →
      (dumpEntries level es).Agree (dumpEntries level (relabelEntries f es)) s s' I
        fun ds ds' => ds' = relabelEntries f ds
  | _, [], _, _, hI => agree_pure hI rfl
  | level, (k, v) :: es, s, s', hI => by
    rw [relabelEntries, dumpEntries, dumpEntries]
    refine (agree_dump h .any level k hI).bind fun k₁ k₂ t t' hI' hk => ?_
    refine (agree_dump h .any level v hI').bind fun w w' u u' hI'' hw => ?_
    refine (agree_dumpEntries h level es hI'').bind fun ds ds' r r' hI₃ hds => agree_pure hI₃ ?_
    rw [hk, hw, hds, relabelEntries]

theorem agree_dumpFields (h : Tracks f I) : ∀ (kind : ObjectKind) (level : Nat)
    (attrs : List (String × Value)) {s s' : State}, I s s' →
      (dumpFields kind level attrs).Agree (dumpFields kind level (relabelAttrs f attrs)) s s' I
        fun fields fields' => fields' = relabelAttrs f fields
  | _, _, [], _, _, hI => agree_pure hI rfl
  | kind, level, (name, v) :: attrs, s, s', hI => by
    rw [relabelAttrs, dumpFields, dumpFields]
    split
    · refine (agree_dump h _ level v hI).bind fun w w' t t' hI' hw => ?_
      refine (agree_dumpFields h kind level attrs hI').bind fun fields fields' u u' hI'' hfields =>
        agree_pure hI'' ?_
      rw [hw, hfields, relabelAttrs]
    · exact agree_dumpFields h kind level attrs hI

theorem agree_dumpGrant (h : Tracks f I) : ∀ (level : Nat) (kind : RecordKind) (fields : List Value)
    {s s' : State}, I s s' →
      (dumpGrant level kind fields).Agree (dumpGrant level kind (relabelAll f fields)) s s' I
        fun fields fields' => fields' = relabelAttrs f fields
  | level, kind, actor :: operations :: rest, s, s', hI => by
    rw [relabelAll, relabelAll, dumpGrant, dumpGrant]
    split
    · refine (agree_dump h .optionalText level actor hI).bind fun a a' t t' hI' ha => ?_
      refine (agree_dump h .texts level operations hI').bind fun ops ops' u u' hI'' hops =>
        agree_pure hI'' ?_
      rw [ha, hops]
      rfl
    · exact agree_pure hI rfl
  | _, _, [], _, _, hI | _, _, [_], _, _, hI => agree_pure hI rfl

end

/-! ### Permissions -/

theorem relabelAll_text (texts : List String) :
    relabelAll f (texts.map .text) = texts.map .text := by
  rw [relabelAll_eq_map, List.map_map]
  rfl

theorem relabel_optionalText (o : Option String) : (optionalText o).relabel f = optionalText o := by
  cases o <;> rfl

theorem text_relabel (v : Value) : Field.text (v.relabel f) = Field.text v := by
  cases v <;> rfl

theorem optional_text_relabel (v : Value) :
    Field.optional Field.text (v.relabel f) = Field.optional Field.text v := by
  cases v <;> rfl

/-- A permission is read from renamed fields as from the fields. -/
theorem readPermission_relabel (actor : Value) (c : Cell) (operations : List Value) :
    readPermission [] [("actor", actor.relabel f),
      ("operations", .list (f c) (relabelAll f operations))] =
        readPermission [] [("actor", actor), ("operations", .list c operations)] := by
  have heach (i : Nat) :
      Field.each (fun i v => Field.along ([.field "operations", .index i]) (Field.text v)) i
          (relabelAll f operations) =
        Field.each (fun i v => Field.along ([.field "operations", .index i]) (Field.text v)) i
        operations := by
    induction operations generalizing i with
    | nil => rfl
    | cons v vs ih => rw [relabelAll, Field.each, Field.each, ih, text_relabel]
  have hread (actor : Value) (c : Cell) (operations : List Value) :
      readPermission [] [("actor", actor), ("operations", .list c operations)] =
        (fun p => ⟨p.1, p.2⟩) <$> Field.both
        (Field.along [.field "actor"] (Field.optional Field.text actor))
          (Field.each (fun i v => Field.along ([.field "operations", .index i]) (Field.text v)) 0
            operations) := rfl
  rw [hread, hread, optional_text_relabel, heach]

variable (h : Tracks f I)

include h

theorem agree_makePermission (p : PermissionFields) (hI : I s s') :
    (makePermission p).Agree (makePermission p) s s' I fun w w' => w' = w.relabel f := by
  have hlist := agree_list h hI (p.operations.map .text)
  rw [relabelAll_text] at hlist
  refine hlist.bind fun v v' t t' hI' hv => ?_
  have hobject := agree_object h hI' .permissionPayload [("actor", optionalText p.actor),
    ("operations", v)]
  rw [relabelAttrs, relabelAttrs, relabelAttrs, relabel_optionalText] at hobject
  rw [hv]
  exact hobject

theorem agree_permission (actor : Value) (c : Cell) (operations : List Value) (hI : I s s') :
    (permission [("actor", actor), ("operations", .list c operations)]).Agree
      (permission [("actor", actor.relabel f),
        ("operations", .list (f c) (relabelAll f operations))]) s s' I
      fun w w' => w' = w.relabel f := by
  have hpermission (actor : Value) (c : Cell) (operations : List Value) :
      permission [("actor", actor), ("operations", .list c operations)] =
        accept (readPermission [] [("actor", actor), ("operations", .list c operations)]) >>=
          makePermission := rfl
  rw [hpermission, hpermission, readPermission_relabel]
  cases readPermission [] [("actor", actor), ("operations", Value.list c operations)] with
  | error errors => exact agree_fail hI
  | ok p => exact agree_makePermission h p hI

/-- What has no objects but methods keeps its name. -/
theorem relabel_of_shared {v : Value} (hv : v.Within (· = [])) : v.relabel f = v :=
  relabel_of_within (hv.mono fun c hc => by rw [hc, h.nil])

omit h in
theorem agree_storedAttr {v : Value} (hv : v.Within (· = [])) (name : String) (hI : I s s') :
    (liftM (v.storedAttr name) : Making Value).Agree (liftM (v.storedAttr name)) s s' I
      fun w w' => w' = w ∧ w.Within (· = []) :=
  agree_lift hI (fun w hw => ⟨w, hw, rfl, Within.storedAttr (P := (· = [])) rfl hv hw⟩)
    fun _ hfault => hfault

omit h in
theorem within_shared {v : Value} (hv : v.Within fun _ => False) : v.Within (· = []) :=
  hv.mono fun _ => False.elim

/-- The tokens of operations without objects. -/
theorem agree_operationTokens {operations : Value} (hoperations : operations.Within fun _ => False)
    (hI : I s s') :
    (operationTokens operations).Agree (operationTokens operations) s s' I
      fun vs vs' => vs' = relabelAll f vs := by
  have hnostream : ∀ c vs, operations ≠ .stream c vs := by
    rintro c vs rfl
    exact hoperations.1
  have hforEach : (operations.forEach fun op => liftM (op.storedAttr "operation")).Agree
      ((operations.relabel f).forEach fun op => liftM (op.storedAttr "operation")) s s' I
      (List.Forall₂ fun w w' => w' = w.relabel f) := by
    refine agree_forEach_of_items hnostream hI fun vs hvs op hop t t' hI' => ?_
    have hop := within_shared (withinAll_iff.1 (hoperations.items hvs) op hop)
    rw [relabel_of_shared h hop]
    refine (agree_storedAttr hop "operation" hI').mono fun w w' hw => ?_
    rw [relabel_of_shared h hw.2, hw.1]
  rw [relabel_of_shared h (within_shared hoperations)] at hforEach
  exact hforEach.mono fun _ _ => relabelAll_of_forall₂

/-- What follows the identity when a payload is made from a permission without objects. -/
theorem agree_permission_of_tokens {g : Grant} (hg : g.toValue.Within fun _ => False)
    {identity : Value} (hidentity : identity.Within (· = [])) (hI : I s s') :
    (do
      let tokens ← g.toValue.attr "operation_tokens"
      let operations ← Making.list (← tokens.takeItems)
      permission [("actor", identity), ("operations", operations)] : Making Value).Agree
      (do
        let tokens ← g.toValue.attr "operation_tokens"
        let operations ← Making.list (← tokens.takeItems)
        permission [("actor", identity), ("operations", operations)]) s s' I
      fun w w' => w' = w.relabel f := by
  have hattr : g.toValue.attr "operation_tokens" = (do list (← operationTokens g.operations)) := rfl
  have htokens : (do list (← operationTokens g.operations) : Making Value).Agree
      (do list (← operationTokens g.operations)) s s' I
      fun v v' => (∀ c vs, v ≠ .stream c vs) ∧ v' = v.relabel f := by
    refine (agree_operationTokens h hg.2.1 hI).bind fun vs vs' t t' hI' hvs => ?_
    rw [hvs]
    refine (agree_newList h hI' vs).mono fun v w hv => ?_
    obtain ⟨c, rfl, rfl⟩ := hv
    exact ⟨by simp, by rw [relabel]⟩
  rw [hattr]
  refine htokens.bind fun v v' t t' hI' hv => ?_
  rw [hv.2]
  refine (agree_takeItems_of_items hv.1 hI').bind fun vs vs' u u' hI'' hvs => ?_
  rw [hvs]
  refine (agree_newList h hI'' vs).bind fun operations operations' q q' hI₃ hoperations => ?_
  obtain ⟨c, rfl, rfl⟩ := hoperations
  have hpermission := agree_permission h identity c vs hI₃
  rwa [relabel_of_shared h hidentity] at hpermission

/-- The payload of a permission without objects. -/
theorem agree_ofPermission {g : Grant} (hg : g.toValue.Within fun _ => False) (hI : I s s') :
    (ofPermission g.toValue).Agree (ofPermission g.toValue) s s' I fun w w' =>
      w' = w.relabel f := by
  refine (agree_storedAttr (within_shared hg) "actor" hI).bind fun actor actor' t t' hI' hactor =>
    ?_
  obtain ⟨rfl, hactor⟩ := hactor
  dsimp only
  split
  · refine (agree_pure (Q := fun w w' => w' = w ∧ w.Within (· = [])) hI' ⟨rfl, trivial⟩).bind
      fun identity identity' u u' hI'' hidentity => ?_
    rw [hidentity.1]
    exact agree_permission_of_tokens h hg hidentity.2 hI''
  · refine (agree_storedAttr hactor "identity" hI').bind
      fun identity identity' u u' hI'' hidentity => ?_
    rw [hidentity.1]
    exact agree_permission_of_tokens h hg hidentity.2 hI''

/-! ### Requests -/

omit h in
theorem each_takeEntry {payloads : List Value} (hmodels : ∀ p ∈ payloads, IsPermissionModel p) :
    each takeEntry payloads = pure payloads := by
  induction payloads with
  | nil => rfl
  | cons p payloads ih =>
    rw [List.forall_mem_cons] at hmodels
    obtain ⟨c, attrs, rfl⟩ := hmodels.1
    rw [each, ih hmodels.2]
    rfl

omit h in
theorem each_readEntry {payloads : List Value} (hmodels : ∀ p ∈ payloads, IsPermissionModel p)
    {path : Nat → List Step} (i : Nat) :
    Field.each (fun i => readEntry (path i)) i payloads = .ok (payloads.map .model) := by
  induction payloads generalizing i with
  | nil => rfl
  | cons p payloads ih =>
    rw [List.forall_mem_cons] at hmodels
    obtain ⟨c, attrs, rfl⟩ := hmodels.1
    rw [Field.each, ih hmodels.2]
    rfl

omit h in
theorem mapM_makeEntry (payloads : List Value) :
    (payloads.map PermissionEntry.model).mapM makeEntry = pure payloads := by
  induction payloads with
  | nil => rfl
  | cons p payloads ih =>
    rw [List.map_cons, List.mapM_cons, ih]
    rfl

/-- The fields that the body of a request is made from. -/
def bodyFields (overwrite : Bool) (name type value permissions : Value) : Fields :=
  [("overwrite", .bool overwrite), ("name", name), ("type", type), ("value", value),
    ("additional_permissions", permissions)]

omit h in
/-- A body is made from the models of permissions as they are. -/
theorem request_bodyFields {payloads : List Value} (hmodels : ∀ p ∈ payloads, IsPermissionModel p)
    {overwrite : Bool} {name type value : Value} {n ty : Option String} (c : Cell)
    (hname : Field.optional Field.text name = .ok n)
    (htype : Field.optional Field.text type = .ok ty) :
    request (bodyFields overwrite name type value (.list c payloads)) =
      (Making.list payloads >>= fun permissions => Making.object .requestPayload
        (bodyFields overwrite (optionalText n) (optionalText ty) value permissions)) := by
  have htake : takeField "additional_permissions" takeEntries
      (bodyFields overwrite name type value (.list c payloads)) =
      (each takeEntry payloads >>= fun vs =>
        pure (bodyFields overwrite name type value (.list c vs))) := by
    simp [bodyFields, takeField, takeEntries, takeList]
  have hread : readRequest (bodyFields overwrite name type value (.list c payloads)) =
      .ok ⟨overwrite, n, ty, value, payloads.map .model⟩ := by
    have hname : fieldOr (bodyFields overwrite name type value (.list c payloads)) "name" []
        (Field.optional Field.text) none = .ok n := (fieldOr_eq_ok_iff rfl).2 hname
    have htype : fieldOr (bodyFields overwrite name type value (.list c payloads)) "type" []
        (Field.optional Field.text) none = .ok ty := (fieldOr_eq_ok_iff rfl).2 htype
    have hpermissions : listField (bodyFields overwrite name type value (.list c payloads))
        "additional_permissions" [] readEntry = .ok (payloads.map .model) :=
        each_readEntry hmodels 0
    rw [readRequest, hname, htype, hpermissions]
    rfl
  rw [request, htake, each_takeEntry hmodels, pure_bind, pure_bind, hread]
  change makeRequest _ = _
  rw [makeRequest, mapM_makeEntry, pure_bind]
  rfl

omit h in
theorem ofRequest_eq (r : Request) : ofRequest r.toValue = (do
    let value ← Value.thaw ((r.value.map CredentialValue.content).getD .null)
    let payloads ← Making.list (← each ofPermission (r.permissions.map Grant.toValue))
    request (bodyFields r.overwrite ((r.name.map fun n => Value.ofWord n.word).getD .null)
      ((r.value.map fun v => Value.text v.type.token).getD .null) value payloads)) := by
  have hoverwrite : r.toValue.storedAttr "overwrite" = .ok (.bool r.overwrite) := rfl
  have hpermissions : r.toValue.storedAttr "additional_permissions" =
    .ok (.tuple (r.permissions.map Grant.toValue)) := rfl
  rw [ofRequest, hoverwrite, r.storedAttr_name, r.storedAttr_type, r.storedAttr_value, hpermissions]
  rfl

theorem agree_payloads {gs : List Grant} (hgs : ∀ g ∈ gs, g.toValue.Within fun _ => False)
    (hI : I s s') :
    (each ofPermission (gs.map Grant.toValue)).Agree
      (each ofPermission (gs.map Grant.toValue)) s s' I fun vs vs' =>
        (∀ v ∈ vs, IsPermissionModel v) ∧ vs' = relabelAll f vs := by
  induction gs generalizing s s' with
  | nil => exact agree_pure hI ⟨by simp, rfl⟩
  | cons g gs ih =>
    rw [List.forall_mem_cons] at hgs
    refine (agree_ofPermission h hgs.1 hI).of_gives.bind fun v v' t t' hI' hv => ?_
    obtain ⟨rfl, u, hgives⟩ := hv
    obtain ⟨c, c', identity, tokens, -, -, rfl⟩ := eq_of_gives_ofPermission hgives
    refine (ih hgs.2 hI').bind fun vs vs' r r' hI'' hvs => agree_pure hI'' ?_
    obtain ⟨hmodels, rfl⟩ := hvs
    exact ⟨List.forall_mem_cons.2 ⟨⟨c, _, rfl⟩, hmodels⟩, rfl⟩

omit h in
theorem isPermissionModel_relabelAll {payloads : List Value}
    (hmodels : ∀ p ∈ payloads, IsPermissionModel p) :
    ∀ p ∈ relabelAll f payloads, IsPermissionModel p := by
  intro p hp
  rw [relabelAll_eq_map] at hp
  obtain ⟨q, hq, rfl⟩ := List.mem_map.1 hp
  obtain ⟨c, attrs, rfl⟩ := hmodels q hq
  exact ⟨f c, _, rfl⟩

/-- The payload of a request whose permissions have no objects and whose document keeps its
names. -/
theorem agree_ofRequest {r : Request} (hgs : ∀ g ∈ r.permissions, g.toValue.Within fun _ => False)
    (hcontent : ((r.value.map CredentialValue.content).getD .null).relabel f =
      (r.value.map CredentialValue.content).getD .null) (hI : I s s') :
    (ofRequest r.toValue).Agree (ofRequest r.toValue) s s' I fun w w' => w' = w.relabel f := by
  rw [ofRequest_eq]
  have hthaw := agree_thaw h ((r.value.map CredentialValue.content).getD .null) hI
  rw [hcontent] at hthaw
  refine hthaw.bind fun value value' t t' hI' hvalue => ?_
  rw [hvalue]
  refine (agree_payloads h hgs hI').bind fun payloads payloads' u u' hI'' hpayloads => ?_
  obtain ⟨hmodels, rfl⟩ := hpayloads
  refine (agree_newList h hI'' payloads).bind fun list list' p p' hI₃ hlist => ?_
  obtain ⟨c, rfl, rfl⟩ := hlist
  rw [request_bodyFields hmodels c (optional_text_name r) (optional_text_type r),
    request_bodyFields (isPermissionModel_relabelAll hmodels) (f c) (optional_text_name r)
    (optional_text_type r)]
  refine (agree_list h hI₃ payloads).bind fun permissions permissions' q q' hI₄ hpermissions => ?_
  have hbody (name type : Option String) :
      bodyFields r.overwrite (optionalText name) (optionalText type) (value.relabel f)
      (permissions.relabel f) =
        relabelAttrs f (bodyFields r.overwrite (optionalText name)
          (optionalText type) value permissions) := by
    simp only [bodyFields, relabelAttrs, relabel_optionalText]
    rfl
  rw [hpermissions, hbody]
  exact agree_object h hI₄ .requestPayload _

omit h in
theorem isTruthy_relabel (v : Value) : (v.relabel f).isTruthy = v.isTruthy := by
  cases v <;> simp only [relabel, isTruthy, relabelAll_eq_map, relabelEntries_eq_map,
    List.isEmpty_map]

omit h in
theorem written_relabelAttrs (attrs : List (String × Value)) :
    written (relabelAttrs f attrs) = relabelAttrs f (written attrs) := by
  rw [written, fieldsOf_relabelAttrs, written]
  simp only [relabelAttrs_eq_map, List.filter_map]
  congr 1
  refine List.filter_congr fun a _ => ?_
  simp only [Function.comp_apply, isTruthy_relabel]

/-- The mappings of a body and of the renamed body. -/
theorem agree_toDict (c : Cell) (attrs : List (String × Value)) (hI : I s s') :
    (toDict (.object .requestPayload c attrs)).Agree
      (toDict (.object .requestPayload (f c) (relabelAttrs f attrs))) s s' I fun d d' =>
        d' = d.relabel f := by
  rw [toDict, toDict, written_relabelAttrs]
  exact agree_mapOf h (agree_dumpFields h .requestPayload 1 (written attrs) hI)

/-- **A request is rendered to the same mapping at all times, but for the names of its objects.** -/
theorem agree_requestToDict {r : Request}
    (hgs : ∀ g ∈ r.permissions, g.toValue.Within fun _ => False)
    (hcontent : ((r.value.map CredentialValue.content).getD .null).relabel f =
      (r.value.map CredentialValue.content).getD .null) (hI : I s s') :
    (requestToDict r.toValue).Agree (requestToDict r.toValue) s s' I fun d d' =>
      d' = d.relabel f := by
  refine (agree_ofRequest h hgs hcontent hI).of_gives.bind fun w w' t t' hI' hw => ?_
  obtain ⟨rfl, u, hgives⟩ := hw
  obtain ⟨c, c', value, payloads, -, -, rfl⟩ := eq_of_gives_ofRequest hgives
  exact agree_toDict h _ _ hI'

end Payload

end CredentialWrites
