import CredentialWrites.Proofs.Permission.Calls

/-!
# Reading identities back

The factories and the builder check that the first slash of an identity splits the zone from the
identifier. Neither checks that there is a zone or an identifier to read: an actor of which one of
them is empty is made, and its identity is refused. All other actors are read back from their
identities.

* `Actor.Made` : the actors that are made of plain texts.
* `Actor.WellFormed` : the actors that the checks let through.
* `Actor.ofIdentity_identity` : an identity is read back exactly if no part of it is empty.
-/

namespace CredentialWrites

namespace PermissionBuilder.Call

/-- The zone and the identifier that a call names. -/
def names : Call → List Value
  | .app id => [id]
  | .user id => [id]
  | .zoneUser zone id => [zone, id]
  | .client id => [id]
  | .zoneClient zone id => [zone, id]
  | .operation _ => []
  | .operations _ => []

end PermissionBuilder.Call

namespace Actor

/-- A zone as an argument. -/
def zoneArgument (zone : Option String) : Value :=
  (zone.map .text).getD .null

/-- The actors that a factory returns or a call on a permission builder sets, for plain texts. -/
inductive Made : Actor → Prop where
  | app {id : String} {a : Actor} (h : Actor.app (.text id) = .ok a) : Made a
  | user {id : String} {zone : Option String} {a : Actor}
      (h : Actor.user (.text id) (zoneArgument zone) = .ok a) : Made a
  | client {id : String} {zone : Option String} {a : Actor}
      (h : Actor.client (.text id) (zoneArgument zone) = .ok a) : Made a
  | set {b b' : PermissionBuilder} {c : PermissionBuilder.Call} {a : Actor}
      (hnames : ∀ v ∈ c.names, ∃ s, v = .text s) (h : b.set c = .ok b') (hb : b.actor = none)
      (ha : b'.actor = some a) : Made a

/-- An actor whose zone or identifier is the empty text. -/
def HasEmptyPart (a : Actor) : Prop :=
  a.id = .plain "" ∨ a.zone = some (.plain "")

/-- The actors that the checks let through: the first slash of an identity ends the zone, except in
an application. -/
inductive WellFormed : Actor → Prop where
  | app (id : String) : WellFormed ⟨.app, .plain id, none⟩
  | bare {type : ActorType} (id : String) (htype : type ≠ .app) (hid : zoneSeparator ∉ id.toList) :
      WellFormed ⟨type, .plain id, none⟩
  | zoned {type : ActorType} (zone id : String) (htype : type ≠ .app)
      (hzone : zoneSeparator ∉ zone.toList) : WellFormed ⟨type, .plain id, some (.plain zone)⟩

/-! ### What the checks let through -/

variable {type : ActorType} {a : Actor} {id zone : String}

theorem wellFormed_of_bare? (htype : type ≠ .app) (h : bare? type (.plain id) = some a) :
    WellFormed a := by
  unfold bare? at h
  split at h
  · cases h
  · rename_i hid
    rw [← Option.some.inj h]
    exact .bare id htype hid

theorem wellFormed_of_inZone? (htype : type ≠ .app)
    (h : inZone? type (.plain zone) (.plain id) = some a) : WellFormed a := by
  unfold inZone? at h
  split at h
  · cases h
  · rename_i hzone
    rw [← Option.some.inj h]
    exact .zoned zone id htype hzone

theorem wellFormed_of_app (h : Actor.app (.text id) = .ok a) : WellFormed a := by
  have ha := app_eq_ok_iff.1 h
  rw [← Option.some.inj ha]
  exact .app id

theorem wellFormed_of_user {zone : Option String}
    (h : Actor.user (.text id) (zoneArgument zone) = .ok a) : WellFormed a := by
  cases zone with
  | none => exact wellFormed_of_bare? (by decide) (user_null_eq_ok_iff.1 h)
  | some zone =>
    exact wellFormed_of_inZone? (by decide) ((user_eq_ok_iff (w := .plain zone) rfl).1 h)

theorem wellFormed_of_client {zone : Option String}
    (h : Actor.client (.text id) (zoneArgument zone) = .ok a) : WellFormed a := by
  cases zone with
  | none => exact wellFormed_of_bare? (by decide) (client_null_eq_ok_iff.1 h)
  | some zone =>
    exact wellFormed_of_inZone? (by decide) ((client_eq_ok_iff (w := .plain zone) rfl).1 h)

theorem wellFormed_of_actor? {c : PermissionBuilder.Call} (hnames : ∀ v ∈ c.names, ∃ s, v = .text s)
    (h : c.actor? = some a) : WellFormed a := by
  cases c with
  | app id =>
    obtain ⟨id, rfl⟩ := hnames id (by simp [PermissionBuilder.Call.names])
    rw [← Option.some.inj h]
    exact .app id
  | user id =>
    obtain ⟨id, rfl⟩ := hnames id (by simp [PermissionBuilder.Call.names])
    exact wellFormed_of_bare? (by decide) h
  | zoneUser zone id =>
    obtain ⟨zone, rfl⟩ := hnames zone (by simp [PermissionBuilder.Call.names])
    obtain ⟨id, rfl⟩ := hnames id (by simp [PermissionBuilder.Call.names])
    exact wellFormed_of_inZone? (by decide) h
  | client id =>
    obtain ⟨id, rfl⟩ := hnames id (by simp [PermissionBuilder.Call.names])
    exact wellFormed_of_bare? (by decide) h
  | zoneClient zone id =>
    obtain ⟨zone, rfl⟩ := hnames zone (by simp [PermissionBuilder.Call.names])
    obtain ⟨id, rfl⟩ := hnames id (by simp [PermissionBuilder.Call.names])
    exact wellFormed_of_inZone? (by decide) h
  | operation v => cases h
  | operations vs => cases h

/-- The checks of the factories and those of the builder come to the same. -/
theorem wellFormed_of_made (h : Made a) : WellFormed a := by
  cases h with
  | app h => exact wellFormed_of_app h
  | user h => exact wellFormed_of_user h
  | client h => exact wellFormed_of_client h
  | set hnames h hb ha =>
    obtain ⟨a', ha', -, rfl⟩ | ⟨ops, -, rfl⟩ := PermissionBuilder.set_eq_ok_iff.1 h
    · rw [← Option.some.inj ha]
      exact wellFormed_of_actor? hnames ha'
    · -- operations leave the builder without an actor
      have hnone := hb.symm.trans ha
      cases hnone

/-! ### Reading -/

/-- What follows the type in an identity. -/
def rest (a : Actor) : List Char :=
  match a.zone with
  | none => a.id.shown.toList
  | some zone => zone.shown.toList ++ zoneSeparator :: a.id.shown.toList

theorem rest_zoned (type : ActorType) (zone id : String) :
    rest ⟨type, .plain id, some (.plain zone)⟩ = zone.toList ++ zoneSeparator :: id.toList :=
  rfl

theorem toList_identity (a : Actor) :
    a.identity.toList = a.type.token.toList ++ identitySeparator :: a.rest := by
  obtain ⟨type, id, zone⟩ := a
  cases zone <;> simp [identity, rest, identitySeparator, zoneSeparator]

theorem separator_not_mem_token (type : ActorType) : identitySeparator ∉ type.token.toList := by
  cases type <;> decide

/-- An identity is read by its type and by what follows that. -/
theorem ofIdentity_of_rest (a : Actor) :
    ofIdentity (.text a.identity) =
      if a.rest.isEmpty then .error (.argument (.malformedIdentity (.plain a.identity)))
      else (splitZone a.type a.rest).elim
        (.error (.argument (.malformedIdentity (.plain a.identity)))) fun p =>
          .ok ⟨a.type, p.2, p.1⟩ := by
  -- no type holds the separator, so the first one in an identity ends the type
  have hcut : Text.cut? identitySeparator a.identity.toList =
      some (a.type.token.toList, a.rest) := by
    rw [toList_identity]
    exact Text.cut?_append (separator_not_mem_token a.type)
  have hword : Argument.word "identity" (.text a.identity) = .ok (.plain a.identity) := rfl
  unfold ofIdentity
  rw [hword]
  simp only [bind, Except.bind, Word.text, hcut, String.ofList_toList, ActorType.ofToken?_token]
  cases splitZone a.type a.rest <;> rfl

theorem splitZone_of_not_mem (htype : type ≠ .app) {cs : List Char} (h : zoneSeparator ∉ cs) :
    splitZone type cs = some (none, .plain (String.ofList cs)) := by
  cases type with
  | app => exact absurd rfl htype
  | user => simp only [splitZone, Text.cut?_eq_none_iff.2 h]
  | client => simp only [splitZone, Text.cut?_eq_none_iff.2 h]

theorem splitZone_append (htype : type ≠ .app) {zone id : List Char} (h : zoneSeparator ∉ zone) :
    splitZone type (zone ++ zoneSeparator :: id) =
      if zone.isEmpty || id.isEmpty then none
      else some (some (.plain (String.ofList zone)), .plain (String.ofList id)) := by
  cases type with
  | app => exact absurd rfl htype
  | user => simp only [splitZone, Text.cut?_append h]
  | client => simp only [splitZone, Text.cut?_append h]

/-- An actor that the checks let through is read back, unless a part of it is empty. -/
theorem WellFormed.ofIdentity (h : WellFormed a) :
    (¬ a.HasEmptyPart → ofIdentity (.text a.identity) = .ok a) ∧
      (a.HasEmptyPart →
        ofIdentity (.text a.identity) =
          .error (.argument (.malformedIdentity (.plain a.identity)))) := by
  rw [ofIdentity_of_rest]
  cases h with
  | app id => by_cases hid : id = "" <;> simp [rest, HasEmptyPart, splitZone, Word.shown, hid]
  | bare id htype hsep =>
    have hsplit := splitZone_of_not_mem htype hsep
    by_cases hid : id = "" <;> simp [rest, HasEmptyPart, Word.shown, hid, hsplit]
  | zoned zone id htype hsep =>
    -- the identifier may hold slashes of its own, as only the first one cuts
    rw [rest_zoned, splitZone_append htype hsep]
    by_cases hzone : zone = "" <;> by_cases hid : id = "" <;> simp [HasEmptyPart, hzone, hid]

/-- **Identities are read back exactly if no part of them is empty.** The actor that is made of
plain texts is the one that its identity names; if its zone or its identifier is empty, its identity
is refused as malformed. -/
theorem ofIdentity_identity (ha : Made a) :
    (¬ a.HasEmptyPart → Actor.ofIdentity (.text a.identity) = .ok a) ∧
      (a.HasEmptyPart → Actor.ofIdentity (.text a.identity) =
        .error (.argument (.malformedIdentity (.plain a.identity)))) :=
  (wellFormed_of_made ha).ofIdentity

/-- A zone keeps the slashes of its identifier apart; an application may have no identifier to
read. -/
theorem ofIdentity_identity_of_factories :
    (∃ a, Actor.user (.text "a/b:c") (zoneArgument (some "z:1")) = .ok a ∧
        Actor.ofIdentity (.text a.identity) = .ok a) ∧
      ∃ a, Actor.app (.text "") = .ok a ∧
        Actor.ofIdentity (.text a.identity) =
          .error (.argument (.malformedIdentity (.plain "mtls-app:"))) := by
  have huser : Actor.user (.text "a/b:c") (zoneArgument (some "z:1")) =
      .ok ⟨.user, .plain "a/b:c", some (.plain "z:1")⟩ :=
    (user_eq_ok_iff (w := .plain "z:1") rfl).2 (by decide)
  have happ : Actor.app (.text "") = .ok ⟨.app, .plain "", none⟩ := rfl
  exact ⟨⟨_, huser, (ofIdentity_identity (.user huser)).1 (by simp [HasEmptyPart])⟩,
    ⟨_, happ, (ofIdentity_identity (.app happ)).2 (.inl rfl)⟩⟩

end Actor

end CredentialWrites
