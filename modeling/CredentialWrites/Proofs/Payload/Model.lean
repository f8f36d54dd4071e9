import CredentialWrites.Payload.Model
import CredentialWrites.Proofs.Value.Document

/-!
# What payloads hold

The payload of a permission holds the identity of its actor, or nothing, and the tokens of its
operations. The payload of a request holds its name, its type, a thawed copy of its content, and the
payloads of its permissions. All of them pass the lenient reading of fields as they are.

* `Grant.identity?`, `Grant.tokens?` : what is sent for a permission whose fields nobody has
  checked.
* `Payload.eq_of_gives_ofPermission`, `Payload.eq_of_gives_ofRequest` : the payloads of permissions
  and of requests.
-/

namespace CredentialWrites

open Making

/-! ### Attributes of records -/

theorem Actor.storedAttr_identity (a : Actor) :
    a.toValue.storedAttr "identity" = .ok (.text a.identity) := by
  obtain ⟨type, id, zone⟩ := a
  rcases zone with _ | (_ | _ | _) <;> cases id <;> rfl

namespace Request

theorem storedAttr_name (r : Request) :
    r.toValue.storedAttr "name" = .ok ((r.name.map fun n => Value.ofWord n.word).getD .null) := by
  obtain ⟨overwrite, name, value, permissions⟩ := r
  cases name <;> rfl

theorem storedAttr_type (r : Request) :
    r.toValue.storedAttr "type" = .ok ((r.value.map fun v =>
      Value.text v.type.token).getD .null) := by
  obtain ⟨overwrite, name, value, permissions⟩ := r
  rcases value with _ | (_ | _) <;> rfl

theorem storedAttr_value (r : Request) :
    r.toValue.storedAttr "value" = .ok ((r.value.map CredentialValue.content).getD .null) := by
  obtain ⟨overwrite, name, value, permissions⟩ := r
  rcases value with _ | (_ | _) <;> rfl

end Request

/-! ### Permissions -/

namespace Grant

/-- The identity that is sent for a permission, or nothing if it has no actor. -/
def identity? (g : Grant) : Option (Option String) :=
  match g.actor with
  | .null => some none
  | actor => (actor.storedAttr "identity").toOption.bind fun v =>
    (Field.optional Field.text v).toOption

theorem identity?_of_null {g : Grant} {identity : Option String} (h : g.actor = .null)
    (hidentity : Field.optional Field.text .null = .ok identity) : g.identity? = some identity := by
  rw [identity?, h]
  exact congrArg some (Except.ok.inj hidentity)

theorem identity?_of_ne_null {g : Grant} {v : Value} {identity : Option String}
    (h : g.actor ≠ .null) (hv : g.actor.storedAttr "identity" = .ok v)
    (hidentity : Field.optional Field.text v = .ok identity) : g.identity? = some identity := by
  unfold identity?
  split
  · contradiction
  · rw [hv, Except.toOption, Option.bind_some, hidentity, Except.toOption]

/-- The token that is sent for an operation. -/
def token? (op : Value) : Option String :=
  (op.storedAttr "operation").toOption.bind fun v => (Field.text v).toOption

/-- The tokens that are sent for a permission: those of the operations that are left, in their
order. -/
def tokens? (g : Grant) (s : State) : Option (List String) :=
  (g.operations.left? s).bind fun ops => ops.mapM token?

end Grant

namespace Payload

theorem gives_accept {α : Type} {r : Except (List FieldError) α} {s t : State} {a : α} :
    (accept r).Gives s a t ↔ r = .ok a ∧ s = t := by
  cases r with
  | ok b => simp [accept, gives_pure]
  | error errors => simp [accept, not_gives_fail]

theorem along_eq_ok_iff {α : Type} {path : List Step} {r : Except FieldFault α} {a : α} :
    Field.along path r = .ok a ↔ r = .ok a := by
  cases r <;> simp [Field.along]

/-- A field that is there is read. -/
theorem fieldOr_eq_ok_iff {α : Type} {fields : Fields} {name : String} {path : List Step}
    {read : Value → Except FieldFault α} {default a : α} {v : Value}
    (h : fields.lookup name = some v) :
    fieldOr fields name path read default = .ok a ↔ read v = .ok a := by
  rw [fieldOr, h]
  exact along_eq_ok_iff

theorem both_eq_ok_iff {α β : Type} {a : Except (List FieldError) α}
    {b : Except (List FieldError) β} {p : α × β} :
    Field.both a b = .ok p ↔ a = .ok p.1 ∧ b = .ok p.2 := by
  cases a <;> cases b <;> simp [Field.both, Prod.ext_iff]

theorem forall₂_of_each_eq_ok {α : Type} {read : Nat → Value → Except (List FieldError) α}
    {p : Value → α → Prop} (h : ∀ i v a, read i v = .ok a → p v a) {i : Nat} {vs : List Value}
    {as : List α} (has : Field.each read i vs = .ok as) : List.Forall₂ p vs as := by
  induction vs generalizing i as with
  | nil =>
    obtain rfl := Except.ok.inj has
    exact .nil
  | cons v vs ih =>
    simp only [Field.each, Except.map_eq_ok, both_eq_ok_iff] at has
    obtain ⟨⟨a, as⟩, ⟨ha, has⟩, rfl⟩ := has
    exact .cons (h i v a ha) (ih has)

variable {s t : State}

/-- Only the last field is looked at if its name is not that of another. -/
theorem eq_of_gives_takeField {name : String} {take : Value → Making Value} {v : Value}
    {fs : Fields} (others : Fields) (hname : ∀ f ∈ others, f.1 ≠ name)
    (h : (takeField name take (others ++ [(name, v)])).Gives s fs t) :
    ∃ w, (take v).Gives s w t ∧ fs = others ++ [(name, w)] := by
  -- the other fields are passed over one by one, until only the last is left
  induction others generalizing s fs t with
  | nil =>
    simp only [List.nil_append, takeField, if_true, gives_bind, gives_pure] at h
    obtain ⟨w, _, hw, rfl, rfl⟩ := h
    exact ⟨w, hw, rfl⟩
  | cons f others ih =>
    rw [List.forall_mem_cons] at hname
    simp only [List.cons_append, takeField, hname.1, if_false, gives_bind, gives_pure] at h
    obtain ⟨rest, _, hrest, rfl, rfl⟩ := h
    obtain ⟨w, hw, rfl⟩ := ih hname.2 hrest
    exact ⟨w, hw, rfl⟩

/-- The model of a permission. -/
def permissionModel (c c' : Cell) (identity : Option String) (tokens : List String) : Value :=
  .object .permissionPayload c
    [("actor", optionalText identity), ("operations", .list c' (tokens.map .text))]

theorem eq_of_gives_makePermission {p : PermissionFields} {w : Value}
    (h : (makePermission p).Gives s w t) :
    ∃ c c', w = permissionModel c c' p.actor p.operations := by
  simp only [makePermission, gives_bind] at h
  obtain ⟨list, u, hlist, h⟩ := h
  obtain ⟨c', rfl⟩ := eq_of_gives_list hlist
  obtain ⟨c, rfl⟩ := eq_of_gives_object h
  exact ⟨c, c', rfl⟩

theorem readPermission_eq_ok {path : List Step} {actor : Value} {c : Cell} {operations : List Value}
    {p : PermissionFields}
    (h : readPermission path [("actor", actor), ("operations", .list c operations)] = .ok p) :
    Field.optional Field.text actor = .ok p.actor ∧
      List.Forall₂ (fun v token => Field.text v = .ok token) operations p.operations := by
  simp only [readPermission, Except.map_eq_ok, both_eq_ok_iff] at h
  obtain ⟨⟨identity, tokens⟩, ⟨hidentity, htokens⟩, rfl⟩ := h
  -- the operations are there and they are a list, so that each of them is read
  have hitems : listField [("actor", actor), ("operations", .list c operations)] "operations" path
        (fun path v => Field.along path (Field.text v)) =
      Field.each (fun i v => Field.along (path ++ [.field "operations", .index i]) (Field.text v)) 0
        operations := rfl
  rw [hitems] at htokens
  exact ⟨(fieldOr_eq_ok_iff rfl).1 hidentity, forall₂_of_each_eq_ok
    (p := fun v token => Field.text v = .ok token) (fun _ _ _ h => along_eq_ok_iff.1 h) htokens⟩

/-- The fields of a permission are read as they are: there is nothing to take from a list. -/
theorem eq_of_gives_permission {actor w : Value} {c : Cell} {operations : List Value}
    (h : (permission [("actor", actor), ("operations", .list c operations)]).Gives s w t) :
    ∃ c c' identity tokens, Field.optional Field.text actor = .ok identity ∧
      List.Forall₂ (fun v token => Field.text v = .ok token) operations tokens ∧
      w = permissionModel c c' identity tokens := by
  simp only [permission, gives_bind, gives_accept] at h
  obtain ⟨fields, _, hfields, p, _, ⟨hread, rfl⟩, hmake⟩ := h
  obtain ⟨v, hv, rfl⟩ := eq_of_gives_takeField [("actor", actor)] (by simp) hfields
  obtain ⟨rfl, -⟩ := gives_pure.1 hv
  obtain ⟨c, c', rfl⟩ := eq_of_gives_makePermission hmake
  obtain ⟨hidentity, htokens⟩ := readPermission_eq_ok hread
  exact ⟨c, c', p.actor, p.operations, hidentity, htokens, rfl⟩

/-- The tokens of operations are those of the ones that are left. -/
theorem forall₂_of_gives_operationTokens {operations : Value} {vs : List Value}
    (h : (Value.operationTokens operations).Gives s vs t) :
    ∃ ops, operations.left? s = some ops ∧
      List.Forall₂ (fun op v => op.storedAttr "operation" = .ok v) ops vs := by
  obtain ⟨ops, hops, hvs⟩ := Value.forall₂_of_gives_forEach h
  refine ⟨ops, hops, hvs.imp fun op v hv => ?_⟩
  obtain ⟨u, u', hv⟩ := hv
  exact (gives_lift.1 hv).1

/-- What follows the identity when a payload is made from a permission. -/
theorem eq_of_gives_permission_of_tokens {g : Grant} {identity w : Value}
    (h : (do
      let tokens ← g.toValue.attr "operation_tokens"
      let operations ← Making.list (← tokens.takeItems)
      permission [("actor", identity), ("operations", operations)] : Making Value).Gives s w t) :
    ∃ c c' actor tokens, Field.optional Field.text identity = .ok actor ∧
      g.tokens? s = some tokens ∧
      w = permissionModel c c' actor tokens := by
  have hattr : g.toValue.attr "operation_tokens" =
      (do list (← Value.operationTokens g.operations)) := rfl
  -- the tokens are put into a list, of which the model gets a copy
  simp only [hattr, gives_bind] at h
  obtain ⟨_, _, ⟨vs, _, hvs, hlist⟩, vs', _, htake, _, _, hlist', hmodel⟩ := h
  obtain ⟨c, rfl⟩ := eq_of_gives_list hlist
  obtain ⟨c', rfl⟩ := eq_of_gives_list hlist'
  obtain rfl : vs = vs' := Option.some.inj (Value.left?_of_gives_takeItems htake)
  obtain ⟨ops, hops, hvalues⟩ := forall₂_of_gives_operationTokens hvs
  obtain ⟨c, c', actor, tokens, hactor, htokens, rfl⟩ := eq_of_gives_permission hmodel
  refine ⟨c, c', actor, tokens, hactor, ?_, rfl⟩
  rw [Grant.tokens?, hops, Option.bind_some, Option.mapM_eq_some_iff]
  refine forall₂_comp (fun op v token hv htoken => ?_) hvalues htokens
  rw [Grant.token?, hv, Except.toOption, Option.bind_some, htoken, Except.toOption]

/-- The payload of a permission. -/
theorem eq_of_gives_ofPermission {g : Grant} {w : Value}
    (h : (ofPermission g.toValue).Gives s w t) :
    ∃ c c' identity tokens, g.identity? = some identity ∧ g.tokens? s = some tokens ∧
      w = permissionModel c c' identity tokens := by
  have hactor : g.toValue.storedAttr "actor" = .ok g.actor := rfl
  simp only [ofPermission, gives_bind (m := liftM _), gives_lift, hactor] at h
  obtain ⟨_, _, ⟨⟨⟩, rfl⟩, h⟩ := h
  split at h
  · -- without an actor there is no identity to look up
    rename_i hnull
    obtain ⟨_, _, hidentity, h⟩ := gives_bind.1 h
    obtain ⟨rfl, rfl⟩ := gives_pure.1 hidentity
    obtain ⟨c, c', identity, tokens, hidentity, htokens, rfl⟩ := eq_of_gives_permission_of_tokens h
    exact ⟨c, c', identity, tokens, Grant.identity?_of_null hnull hidentity, htokens, rfl⟩
  · rename_i hne
    obtain ⟨v, _, hidentity, h⟩ := gives_bind.1 h
    obtain ⟨hv, rfl⟩ := gives_lift.1 hidentity
    obtain ⟨c, c', identity, tokens, hidentity, htokens, rfl⟩ := eq_of_gives_permission_of_tokens h
    exact ⟨c, c', identity, tokens, Grant.identity?_of_ne_null hne hv hidentity, htokens, rfl⟩

/-! ### Requests -/

/-- The model of a request. -/
def requestModel (c c' : Cell) (overwrite : Bool) (name type : Option String) (value : Value)
    (payloads : List Value) : Value :=
  .object .requestPayload c
    [("overwrite", .bool overwrite), ("name", optionalText name), ("type", optionalText type),
     ("value", value), ("additional_permissions", .list c' payloads)]

/-- The value is the model of a permission. -/
def IsPermissionModel (v : Value) : Prop :=
  ∃ c attrs, v = .object .permissionPayload c attrs

variable {payloads : List Value}

theorem eq_of_gives_each_takeEntry (hmodels : ∀ p ∈ payloads, IsPermissionModel p)
    {taken : List Value} (h : (each takeEntry payloads).Gives s taken t) : taken = payloads := by
  induction payloads generalizing s taken t with
  | nil =>
    simp only [each, gives_pure] at h
    exact h.1.symm
  | cons p payloads ih =>
    rw [List.forall_mem_cons] at hmodels
    obtain ⟨c, attrs, rfl⟩ := hmodels.1
    simp only [each, takeEntry, gives_bind, gives_pure] at h
    obtain ⟨_, _, ⟨rfl, rfl⟩, taken, _, htaken, rfl, -⟩ := h
    rw [ih hmodels.2 htaken]

/-- Nothing is taken from models. -/
theorem eq_of_gives_takeEntries (hmodels : ∀ p ∈ payloads, IsPermissionModel p) {c : Cell}
    {w : Value} (h : (takeEntries (.list c payloads)).Gives s w t) : w = .list c payloads := by
  simp only [takeEntries, takeList, gives_bind (m := pure _), gives_pure] at h
  obtain ⟨_, _, ⟨rfl, rfl⟩, h⟩ := h
  obtain ⟨taken, _, htaken, h⟩ := gives_bind.1 h
  obtain ⟨rfl, -⟩ := gives_pure.1 h
  rw [eq_of_gives_each_takeEntry hmodels htaken]

theorem eq_of_each_readEntry (hmodels : ∀ p ∈ payloads, IsPermissionModel p)
    {path : Nat → List Step} {i : Nat} {entries : List PermissionEntry}
    (h : Field.each (fun i => readEntry (path i)) i payloads = .ok entries) :
    entries = payloads.map .model := by
  induction payloads generalizing i entries with
  | nil =>
    obtain rfl := Except.ok.inj h
    rfl
  | cons p payloads ih =>
    rw [List.forall_mem_cons] at hmodels
    simp only [Field.each, Except.map_eq_ok, both_eq_ok_iff] at h
    obtain ⟨⟨entry, entries⟩, ⟨hentry, hentries⟩, rfl⟩ := h
    obtain ⟨c, attrs, rfl⟩ := hmodels.1
    obtain rfl := Except.ok.inj hentry
    rw [ih hmodels.2 hentries]
    rfl

theorem eq_of_gives_makeEntries {vs ws : List Value}
    (h : ((vs.map PermissionEntry.model).mapM makeEntry).Gives s ws t) : ws = vs := by
  induction vs generalizing s ws t with
  | nil =>
    simp only [List.map_nil, List.mapM_nil, gives_pure] at h
    exact h.1.symm
  | cons v vs ih =>
    simp only [List.map_cons, List.mapM_cons, makeEntry, gives_bind, gives_pure] at h
    obtain ⟨_, _, ⟨rfl, rfl⟩, ws, _, hws, rfl, -⟩ := h
    rw [ih hws]

theorem readRequest_eq_ok (hmodels : ∀ p ∈ payloads, IsPermissionModel p) {overwrite : Bool}
    {name type value : Value} {c : Cell} {f : RequestFields}
    (h : readRequest [("overwrite", .bool overwrite), ("name", name), ("type", type),
      ("value", value), ("additional_permissions", .list c payloads)] = .ok f) :
    ∃ n ty, Field.optional Field.text name = .ok n ∧ Field.optional Field.text type = .ok ty ∧
      f = ⟨overwrite, n, ty, value, payloads.map .model⟩ := by
  simp only [readRequest, Except.map_eq_ok, both_eq_ok_iff] at h
  obtain ⟨⟨o, n, ty, entries⟩, ⟨ho, hn, hty, hentries⟩, rfl⟩ := h
  have ho : Field.bool (.bool overwrite) = .ok o := (fieldOr_eq_ok_iff rfl).1 ho
  obtain rfl := Except.ok.inj ho
  obtain rfl := eq_of_each_readEntry hmodels hentries
  exact ⟨n, ty, (fieldOr_eq_ok_iff rfl).1 hn, (fieldOr_eq_ok_iff rfl).1 hty, rfl⟩

/-- The fields of a request are read as they are. -/
theorem eq_of_gives_request (hmodels : ∀ p ∈ payloads, IsPermissionModel p) {overwrite : Bool}
    {name type value w : Value} {c : Cell}
    (h : (request [("overwrite", .bool overwrite), ("name", name), ("type", type), ("value", value),
      ("additional_permissions", .list c payloads)]).Gives s w t) :
    ∃ c c' n ty, Field.optional Field.text name = .ok n ∧ Field.optional Field.text type = .ok ty ∧
      w = requestModel c c' overwrite n ty value payloads := by
  simp only [request, gives_bind, gives_accept] at h
  obtain ⟨fields, _, hfields, f, _, ⟨hread, rfl⟩, hmake⟩ := h
  obtain ⟨v, hv, rfl⟩ := eq_of_gives_takeField
    [("overwrite", .bool overwrite), ("name", name), ("type", type), ("value", value)]
    (by simp) hfields
  -- models are not streams, so that the list is read as it was given
  obtain rfl := eq_of_gives_takeEntries hmodels hv
  obtain ⟨n, ty, hname, htype, rfl⟩ := readRequest_eq_ok hmodels hread
  simp only [makeRequest, gives_bind] at hmake
  obtain ⟨payloads', _, hpayloads, _, _, hlist, hobject⟩ := hmake
  obtain rfl := eq_of_gives_makeEntries hpayloads
  obtain ⟨c', rfl⟩ := eq_of_gives_list hlist
  obtain ⟨c, rfl⟩ := eq_of_gives_object hobject
  exact ⟨c, c', n, ty, hname, htype, rfl⟩

theorem optional_text_name (r : Request) :
    Field.optional Field.text ((r.name.map fun n => Value.ofWord n.word).getD .null) =
      .ok (r.name.map fun n => n.word.text) := by
  obtain ⟨overwrite, name, value, permissions⟩ := r
  rcases name with _ | ⟨_ | _ | _⟩ <;> rfl

theorem optional_text_type (r : Request) :
    Field.optional Field.text ((r.value.map fun v => Value.text v.type.token).getD .null) =
      .ok (r.value.map fun v => v.type.token) := by
  obtain ⟨overwrite, name, value, permissions⟩ := r
  cases value <;> rfl

theorem isPermissionModel_of_forall₂ {gs : List Grant}
    (h : List.Forall₂ (fun g p => ∃ u u',
      (ofPermission (Grant.toValue g)).Gives u p u') gs payloads) :
    ∀ p ∈ payloads, IsPermissionModel p := by
  induction h with
  | nil => simp
  | cons hp _ ih =>
    rw [List.forall_mem_cons]
    obtain ⟨u, u', hp⟩ := hp
    obtain ⟨c, c', identity, tokens, -, -, rfl⟩ := eq_of_gives_ofPermission hp
    exact ⟨⟨c, _, rfl⟩, ih⟩

/-- The payload of a request. -/
theorem eq_of_gives_ofRequest {r : Request} {w : Value} (h : (ofRequest r.toValue).Gives s w t) :
    ∃ c c' value payloads,
      (∃ u u', (Value.thaw ((r.value.map CredentialValue.content).getD .null)).Gives u value u') ∧
      List.Forall₂ (fun g p => ∃ u u', (ofPermission (Grant.toValue g)).Gives u p u')
        r.permissions payloads ∧
      w = requestModel c c' r.overwrite (r.name.map fun n => n.word.text)
        (r.value.map fun v => v.type.token) value payloads := by
  have hoverwrite : r.toValue.storedAttr "overwrite" = .ok (.bool r.overwrite) := rfl
  have hpermissions : r.toValue.storedAttr "additional_permissions" =
    .ok (.tuple (r.permissions.map Grant.toValue)) := rfl
  simp only [ofRequest, hoverwrite, r.storedAttr_name, r.storedAttr_type,
    r.storedAttr_value, hpermissions, gives_bind, gives_lift] at h
  -- the attributes are read in the order of the fields, and nothing is made before the value is
  -- thawed
  obtain ⟨_, _, ⟨⟨⟩, rfl⟩, _, _, ⟨⟨⟩, rfl⟩, _, _, ⟨⟨⟩, rfl⟩, _, _, ⟨⟨⟩, rfl⟩, value, _,
    hvalue, h⟩ := h
  obtain ⟨_, _, ⟨⟨⟩, rfl⟩, payloads, _, hpayloads, _, _, hlist, hrequest⟩ := h
  obtain ⟨items, hitems, hpayloads⟩ := Value.forall₂_of_gives_forEach hpayloads
  obtain rfl : r.permissions.map Grant.toValue = items := Option.some.inj hitems
  rw [List.forall₂_map_left_iff] at hpayloads
  obtain ⟨c, rfl⟩ := eq_of_gives_list hlist
  obtain ⟨c, c', name, type, hname, htype, rfl⟩ :=
    eq_of_gives_request (isPermissionModel_of_forall₂ hpayloads) hrequest
  obtain rfl := Except.ok.inj ((optional_text_name r).symm.trans hname)
  obtain rfl := Except.ok.inj ((optional_text_type r).symm.trans htype)
  exact ⟨c, c', value, payloads, ⟨_, _, hvalue⟩, hpayloads, rfl⟩

end Payload

end CredentialWrites
