import CredentialWrites.Proofs.Actor.Identity

/-!
# The grammar of identities

An identity is the token of a type, a colon and something after it; for a user or a client the first
slash after the colon, if there is one, has something on both of its sides. The identities that are
read are those and no others. What is read has the identity that it was read from, and passes the
checks of its factory; what is not read is refused as an argument, with the name of the parameter.

Two actors that the checks let through never have one identity, whether it can be read back or not:
the first colon ends the type, and the first slash tells a zone from an identifier.

* `Actor.IsIdentity` : the grammar of identities.
* `Actor.identity_injective` : no two actors have one identity.
* `Actor.ofIdentity_grammar` : what is read, and what is not.
-/

namespace CredentialWrites

theorem ActorType.token_of_ofToken? {s : String} {type : ActorType} (h : ofToken? s = some type) :
    type.token = s := by
  have hfound := List.find?_some h
  simpa using hfound

theorem ActorType.token_injective : Function.Injective token := by
  intro type type' h
  have hread : ofToken? type.token = ofToken? type'.token := congrArg ofToken? h
  rw [ofToken?_token, ofToken?_token] at hread
  exact Option.some.inj hread

namespace Actor

variable {type : ActorType} {a b : Actor} {zone : Option Word} {id : Word}

/-! ### One identity, one actor -/

/-- The type and what follows it are told apart by the first colon. -/
theorem type_eq_and_rest_eq (h : a.identity = b.identity) : a.type = b.type ∧ a.rest = b.rest := by
  have hchars : a.type.token.toList ++ identitySeparator :: a.rest =
      b.type.token.toList ++ identitySeparator :: b.rest := by
    rw [← toList_identity, ← toList_identity, h]
  obtain ⟨htoken, hrest⟩ :=
    Text.eq_of_append_eq (separator_not_mem_token a.type) (separator_not_mem_token b.type) hchars
  exact ⟨ActorType.token_injective (String.toList_inj.1 htoken), hrest⟩

/-- A zone ends at the first slash, so that what follows the type tells the actor. -/
theorem WellFormed.eq_of_rest_eq (ha : WellFormed a) (hb : WellFormed b) (htype : a.type = b.type)
    (hrest : a.rest = b.rest) : a = b := by
  cases ha with
  | app id =>
    cases hb with
    | app id' =>
      obtain rfl : id = id' := String.toList_inj.1 hrest
      rfl
    | bare id' hne hid' => exact absurd htype.symm hne
    | zoned zone' id' hne hzone' => exact absurd htype.symm hne
  | bare id hne hid =>
    cases hb with
    | app id' => exact absurd htype hne
    | bare id' hne' hid' =>
      obtain rfl : id = id' := String.toList_inj.1 hrest
      obtain rfl := htype
      rfl
    | zoned zone' id' hne' hzone' =>
      -- an identifier without a zone has no slash to split at
      have hslash : zoneSeparator ∈ id.toList := by
        have hid' : id.toList = zone'.toList ++ zoneSeparator :: id'.toList := hrest
        simp [hid']
      exact absurd hslash hid
  | zoned zone id hne hzone =>
    cases hb with
    | app id' => exact absurd htype hne
    | bare id' hne' hid' =>
      have hslash : zoneSeparator ∈ id'.toList := by
        have hid : zone.toList ++ zoneSeparator :: id.toList = id'.toList := hrest
        simp [← hid]
      exact absurd hslash hid'
    | zoned zone' id' hne' hzone' =>
      rw [rest_zoned, rest_zoned] at hrest
      obtain ⟨hbefore, hafter⟩ := Text.eq_of_append_eq hzone hzone' hrest
      obtain rfl : zone = zone' := String.toList_inj.1 hbefore
      obtain rfl : id = id' := String.toList_inj.1 hafter
      obtain rfl := htype
      rfl

theorem WellFormed.eq_of_identity_eq (ha : WellFormed a) (hb : WellFormed b)
    (h : a.identity = b.identity) : a = b :=
  ha.eq_of_rest_eq hb (type_eq_and_rest_eq h).1 (type_eq_and_rest_eq h).2

/-- **No two actors have one identity.** Actors that are made of plain texts, empty ones and ones
with separators among them, are the same actor if their identities are the same text. -/
theorem identity_injective (ha : Made a) (hb : Made b) (h : a.identity = b.identity) : a = b :=
  (wellFormed_of_made ha).eq_of_identity_eq (wellFormed_of_made hb) h

/-- An empty zone, of which the identity is refused: the factory and the builder make one actor. -/
theorem identity_injective_of_empty_zone :
    ∃ a b, Actor.client (.text "/c:1") (zoneArgument (some "")) = .ok a ∧
      (∃ b', PermissionBuilder.start.set (.zoneClient (.text "") (.text "/c:1")) = .ok b' ∧
        b'.actor = some b) ∧
      a.identity = "uaa-client://c:1" ∧ b.identity = "uaa-client://c:1" ∧ a = b := by
  have hclient : Actor.client (.text "/c:1") (zoneArgument (some "")) =
      .ok ⟨.client, .plain "/c:1", some (.plain "")⟩ :=
    (client_eq_ok_iff (w := .plain "") rfl).2 (by decide)
  have hset : PermissionBuilder.start.set (.zoneClient (.text "") (.text "/c:1")) =
      .ok ⟨some ⟨.client, .plain "/c:1", some (.plain "")⟩, none⟩ :=
    PermissionBuilder.set_eq_ok_iff.2 (.inl ⟨_, by decide, rfl, rfl⟩)
  have hnames : ∀ v ∈ (PermissionBuilder.Call.zoneClient (.text "") (.text "/c:1")).names,
      ∃ s, v = .text s := by
    simp [PermissionBuilder.Call.names]
  exact ⟨_, _, hclient, ⟨_, hset, rfl⟩, by decide, by decide,
    identity_injective (.client hclient) (.set hnames hset rfl rfl) rfl⟩

/-! ### The grammar -/

/-- A text is an identity: the token of a type, a colon and something after it, in which the first
slash, except for an application, has something before and after it. -/
def IsIdentity (t : String) : Prop :=
  ∃ type : ActorType, ∃ rest, t.toList = type.token.toList ++ identitySeparator :: rest ∧
    rest ≠ [] ∧
    (type ≠ .app → ∀ before after, rest = before ++ zoneSeparator :: after →
      zoneSeparator ∉ before →
      before ≠ [] ∧ after ≠ [])

/-- The factory of a type. An application has no zone to give. -/
def make (type : ActorType) (id zone : Value) : Except Fault Actor :=
  match type with
  | .app => Actor.app id
  | .user => Actor.user id zone
  | .client => Actor.client id zone

/-- What follows the type is an identifier as a whole, or it is split at its first slash. -/
theorem splitZone_eq_some_iff {cs : List Char} :
    splitZone type cs = some (zone, id) ↔
      ((type = .app ∨ zoneSeparator ∉ cs) ∧ zone = none ∧ id = .plain (String.ofList cs)) ∨
        (type ≠ .app ∧ ∃ before after, cs = before ++ zoneSeparator :: after ∧
          zoneSeparator ∉ before ∧ before ≠ [] ∧ after ≠ [] ∧
          zone = some (.plain (String.ofList before)) ∧ id = .plain (String.ofList after)) := by
  by_cases htype : type = .app
  · subst htype
    simp [splitZone, eq_comm]
  by_cases hcs : zoneSeparator ∈ cs
  · -- the first slash is where the characters are cut
    obtain ⟨before, after, rfl, hbefore⟩ := Text.exists_cut_of_mem hcs
    rw [splitZone_append htype hbefore]
    constructor
    · intro h
      split at h
      · cases h
      · rename_i hparts
        simp only [Bool.or_eq_true, List.isEmpty_iff, not_or] at hparts
        simp only [Option.some.injEq, Prod.mk.injEq] at h
        exact .inr ⟨htype, before, after, rfl, hbefore, hparts.1, hparts.2, h.1.symm, h.2.symm⟩
    · rintro (⟨happ | hnot, -⟩ | ⟨-, before', after', hsplit, hbefore', hne, hne', rfl, rfl⟩)
      · exact absurd happ htype
      · exact absurd hcs hnot
      · obtain ⟨rfl, rfl⟩ := Text.eq_of_append_eq hbefore hbefore' hsplit
        simp [hne, hne']
  · rw [splitZone_of_not_mem htype hcs]
    constructor
    · intro h
      simp only [Option.some.injEq, Prod.mk.injEq] at h
      exact .inl ⟨.inr hcs, h.1.symm, h.2.symm⟩
    · rintro (⟨-, rfl, rfl⟩ | ⟨-, before, after, rfl, -⟩)
      · rfl
      · exact absurd (by simp) hcs

/-- What is split has as its identity the token and what was split, and passes the checks of the
factory again. -/
theorem identity_of_splitZone {rest : List Char} (h : splitZone type rest = some (zone, id)) :
    (⟨type, id, zone⟩ : Actor).identity.toList = type.token.toList ++ identitySeparator :: rest ∧
      make type (.ofWord id) ((zone.map .ofWord).getD .null) = .ok ⟨type, id, zone⟩ := by
  rw [toList_identity]
  obtain ⟨hbare, rfl, rfl⟩ | ⟨htype, before, after, rfl, hbefore, -, -, rfl, rfl⟩ :=
    splitZone_eq_some_iff.1 h
  · refine ⟨by simp [Actor.rest, Word.shown], ?_⟩
    obtain rfl | hrest := hbare
    · rfl
    · have hbare (type : ActorType) : bare? type (.plain (String.ofList rest)) =
          some ⟨type, .plain (String.ofList rest), none⟩ := by
        simp [bare?, Word.text, hrest]
      cases type with
      | app => rfl
      | user => exact user_null_eq_ok_iff.2 (hbare .user)
      | client => exact client_null_eq_ok_iff.2 (hbare .client)
  · refine ⟨by simp [Actor.rest, Word.shown], ?_⟩
    have hzoned (type : ActorType) :
        inZone? type (.plain (String.ofList before)) (.plain (String.ofList after)) =
          some ⟨type, .plain (String.ofList after), some (.plain (String.ofList before))⟩ := by
      simp [inZone?, Word.text, hbefore]
    cases type with
    | app => exact absurd rfl htype
    | user => exact (user_eq_ok_iff (w := .plain (String.ofList before)) rfl).2 (hzoned .user)
    | client => exact (client_eq_ok_iff (w := .plain (String.ofList before)) rfl).2 (hzoned .client)

/-- A text is read if its type is known and what follows that is split. -/
theorem ofIdentity_eq_ok_iff {t : String} :
    ofIdentity (.text t) = .ok a ↔
      ∃ rest, t.toList = a.type.token.toList ++ identitySeparator :: rest ∧ rest ≠ [] ∧
        splitZone a.type rest = some (a.zone, a.id) := by
  have hword : Argument.word "identity" (.text t) = .ok (.plain t) := rfl
  constructor
  · intro h
    unfold ofIdentity at h
    rw [hword] at h
    simp only [bind, Except.bind, Word.text] at h
    -- each of the checks was passed
    split at h
    · cases h
    rename_i found rest hcut
    split at h
    · cases h
    rename_i hrest
    split at h
    · cases h
    rename_i type htype
    split at h
    · cases h
    rename_i zone id hsplit
    obtain rfl := Except.ok.inj h
    obtain ⟨ht, -⟩ := Text.eq_of_cut? hcut
    rw [← String.toList_ofList (l := found), ← ActorType.token_of_ofToken? htype] at ht
    exact ⟨rest, ht, by simpa using hrest, hsplit⟩
  · rintro ⟨rest, ht, hrest, hsplit⟩
    have hcut : Text.cut? identitySeparator t.toList = some (a.type.token.toList, rest) := by
      rw [ht, Text.cut?_append (separator_not_mem_token a.type)]
    have hne : rest.isEmpty = false := by simpa using hrest
    unfold ofIdentity
    rw [hword]
    simp only [bind, Except.bind, Word.text, hcut, hne, String.ofList_toList,
      ActorType.ofToken?_token, hsplit]
    rfl

/-- Only plain texts are read. The tokens of the logging vocabularies, which are texts too, hold no
colon. -/
theorem eq_text_of_ofIdentity {v : Value} (h : ofIdentity v = .ok a) : ∃ t, v = .text t := by
  unfold ofIdentity at h
  obtain ⟨w, hw, h⟩ := Except.bind_eq_ok.1 h
  have hv := Value.ofWord_of_word? (Argument.word_eq_ok_iff.1 hw)
  cases w with
  | plain t => exact ⟨t, hv⟩
  | level m =>
    have hcut : Text.cut? identitySeparator (Word.level m).text.toList = none := by
      cases m <;> decide
    rw [hcut] at h
    cases h
  | format m =>
    have hcut : Text.cut? identitySeparator (Word.format m).text.toList = none := by
      cases m <;> decide
    rw [hcut] at h
    cases h

/-- What is not read is refused as the argument of its parameter. -/
theorem refused_of_ofIdentity {v : Value} {f : Fault} (h : ofIdentity v = .error f) :
    f.faultClass? = some .invalidArgument ∧ f.field? = some (.text "identity") := by
  unfold ofIdentity at h
  rcases Except.bind_eq_error.1 h with hword | ⟨w, -, h⟩
  · unfold Argument.word at hword
    split at hword
    · cases hword
      exact ⟨rfl, rfl⟩
    · split at hword <;> cases hword
      exact ⟨rfl, rfl⟩
  · split at h
    · cases h
      exact ⟨rfl, rfl⟩
    split at h
    · cases h
      exact ⟨rfl, rfl⟩
    split at h
    · cases h
      exact ⟨rfl, rfl⟩
    split at h
    · cases h
      exact ⟨rfl, rfl⟩
    · cases h

/-- The grammar says what can be split. -/
theorem exists_splitZone_iff {rest : List Char} :
    (∃ zone id, splitZone type rest = some (zone, id)) ↔
      (type ≠ .app → ∀ before after, rest = before ++ zoneSeparator :: after →
        zoneSeparator ∉ before → before ≠ [] ∧ after ≠ []) := by
  constructor
  · rintro ⟨zone, id, hsplit⟩ htype before after rfl hbefore
    rw [splitZone_append htype hbefore] at hsplit
    split at hsplit
    · cases hsplit
    · rename_i hparts
      simpa using hparts
  · intro h
    by_cases hbare : type = .app ∨ zoneSeparator ∉ rest
    · exact ⟨_, _, splitZone_eq_some_iff.2 (.inl ⟨hbare, rfl, rfl⟩)⟩
    · simp only [not_or, not_not] at hbare
      obtain ⟨before, after, rfl, hbefore⟩ := Text.exists_cut_of_mem hbare.2
      obtain ⟨hne, hne'⟩ := h hbare.1 before after rfl hbefore
      exact ⟨_, _, splitZone_eq_some_iff.2
        (.inr ⟨hbare.1, before, after, rfl, hbefore, hne, hne', rfl, rfl⟩)⟩

theorem exists_ofIdentity_iff {t : String} :
    (∃ a, ofIdentity (.text t) = .ok a) ↔ IsIdentity t := by
  simp only [ofIdentity_eq_ok_iff, IsIdentity]
  constructor
  · rintro ⟨a, rest, ht, hrest, hsplit⟩
    exact ⟨a.type, rest, ht, hrest, exists_splitZone_iff.1 ⟨a.zone, a.id, hsplit⟩⟩
  · rintro ⟨type, rest, ht, hrest, hparts⟩
    obtain ⟨zone, id, hsplit⟩ := exists_splitZone_iff.2 hparts
    exact ⟨⟨type, id, zone⟩, rest, ht, hrest, hsplit⟩

/-- **What is read is the grammar.** A plain text is read exactly if it is an identity. The actor
that is read has the text as its identity, and its factory makes the same actor of its identifier
and zone. Every other value, whatever its kind, is refused as the argument of its parameter. -/
theorem ofIdentity_grammar :
    (∀ t, (∃ a, ofIdentity (.text t) = .ok a) ↔ IsIdentity t) ∧
      (∀ t a, ofIdentity (.text t) = .ok a →
        a.identity = t ∧ make a.type (.ofWord a.id) ((a.zone.map .ofWord).getD .null) = .ok a) ∧
      ∀ v, (∀ t, v = .text t → ¬ IsIdentity t) →
        ∃ f, ofIdentity v = .error f ∧ f.faultClass? = some .invalidArgument ∧
          f.field? = some (.text "identity") := by
  refine ⟨fun t => exists_ofIdentity_iff, ?_, ?_⟩
  · intro t a h
    obtain ⟨rest, ht, -, hsplit⟩ := ofIdentity_eq_ok_iff.1 h
    obtain ⟨hidentity, hmake⟩ := identity_of_splitZone hsplit
    exact ⟨String.toList_inj.1 (hidentity.trans ht.symm), hmake⟩
  · intro v hv
    cases h : ofIdentity v with
    | ok a =>
      -- what is read is a text of the grammar
      obtain ⟨t, rfl⟩ := eq_text_of_ofIdentity h
      exact absurd (exists_ofIdentity_iff.1 ⟨a, h⟩) (hv t rfl)
    | error f => exact ⟨f, rfl, refused_of_ofIdentity h⟩

/-- The first slash splits, a text without an identifier is refused, and so is what is no text. -/
theorem ofIdentity_grammar_of_slashes :
    (∃ a, ofIdentity (.text "uaa-user:z//") = .ok a ∧ a.identity = "uaa-user:z//" ∧
        Actor.user (.text "/") (.text "z") = .ok a) ∧
      ¬ IsIdentity "uaa-client:z/" ∧
      ∃ f, ofIdentity (.bytes []) = .error f ∧ f.faultClass? = some .invalidArgument ∧
        f.field? = some (.text "identity") := by
  obtain ⟨haccepts, hread, hrefused⟩ := ofIdentity_grammar
  have huser : ofIdentity (.text "uaa-user:z//") = .ok ⟨.user, .plain "/", some (.plain "z")⟩ :=
    rfl
  refine ⟨⟨_, huser, hread _ _ huser⟩, ?_, hrefused _ (by simp)⟩
  rw [← haccepts]
  rintro ⟨a, ha⟩
  have hmalformed : ofIdentity (.text "uaa-client:z/") =
      .error (.argument (.malformedIdentity (.plain "uaa-client:z/"))) := rfl
  rw [hmalformed] at ha
  cases ha

end Actor

end CredentialWrites
