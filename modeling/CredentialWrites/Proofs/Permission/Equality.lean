import CredentialWrites.Proofs.Actor.Grammar
import CredentialWrites.Proofs.Payload.Fidelity
import CredentialWrites.Proofs.Permission.Run
import CredentialWrites.Proofs.Value.Comparison

/-!
# Equal permissions

Two permissions that were built from plain names are equal exactly if the mappings that stand for
them are: an actor is told by its identity, and an operation by its token.

* `Permission.IsBuilt` : a permission that was built in a run.
* `Permission.IsBuilt.same_toValue_iff` : when permissions are the same.
* `Permission.IsBuilt.same_iff_of_rendersAs` : when what stands for them is.
-/

namespace CredentialWrites

/-- Items that tell what they stand for are pairwise the same exactly if they stand for one list. -/
theorem forall₂_iff_eq {α β : Type} {p : α → β → Prop} {q : β → β → Prop} {as as' : List α}
    {bs bs' : List β} (h : List.Forall₂ p as bs) (h' : List.Forall₂ p as' bs')
    (hq : ∀ a ∈ as, ∀ a' ∈ as', ∀ b b', p a b → p a' b' → (q b b' ↔ a = a')) :
    List.Forall₂ q bs bs' ↔ as = as' := by
  induction h generalizing as' bs' with
  | nil => cases h' <;> simp
  | @cons a b as bs hab _ ih =>
    cases h' with
    | nil => simp
    | @cons a' b' as' bs' hab' hrest =>
      rw [List.forall₂_cons, List.cons.injEq,
        hq a List.mem_cons_self a' List.mem_cons_self b b' hab hab', ih hrest fun a ha a' ha' =>
          hq a (List.mem_cons_of_mem _ ha) a' (List.mem_cons_of_mem _ ha')]

theorem Operation.token_injective : Function.Injective token := by
  intro op op' h
  have hread : ofToken? op.token = ofToken? op'.token := congrArg ofToken? h
  rw [ofToken?_token, ofToken?_token] at hread
  exact Option.some.inj hread

open Value

theorem Payload.same_optionalText_iff {o o' : Option String} :
    same (Payload.optionalText o) (Payload.optionalText o') ↔ o = o' := by
  cases o with
  | none => cases o' <;> simp [Payload.optionalText, same, sameAtom, number?, bytes?]
  | some s =>
    cases o' with
    | none => simp [Payload.optionalText, same, sameAtom, text?]
    | some s' => simp only [Payload.optionalText, Option.map_some, Option.getD_some, same_texts_iff,
        Option.some.injEq]

namespace Actor

variable {a b : Actor}

theorem WellFormed.eq_plain (h : WellFormed a) :
    ∃ type id, ∃ zone : Option String, a = ⟨type, .plain id, zone.map .plain⟩ := by
  cases h with
  | app id => exact ⟨.app, id, none, rfl⟩
  | @bare type id => exact ⟨type, id, none, rfl⟩
  | @zoned type zone id => exact ⟨type, id, some zone, rfl⟩

/-- Actors are the same if all of their fields are. -/
theorem WellFormed.same_toValue_iff (ha : WellFormed a) (hb : WellFormed b) :
    same a.toValue b.toValue ↔ a = b := by
  obtain ⟨type, id, zone, rfl⟩ := ha.eq_plain
  obtain ⟨type', id', zone', rfl⟩ := hb.eq_plain
  have hvalue (type : ActorType) (id : String) (zone : Option String) :
      toValue ⟨type, .plain id, zone.map .plain⟩ =
        .record .actor [.member (.actorType type), .text id, Payload.optionalText zone] := by
    cases zone <;> rfl
  rw [hvalue, hvalue, same_records_iff]
  simp only [List.forall₂_cons, List.forall₂_nil_left_iff, same_member_iff, same_texts_iff,
    Payload.same_optionalText_iff, true_and, and_true]
  rw [Member.actorType.injEq, mk.injEq, Word.plain.injEq,
    (Option.map_injective fun _ _ => Word.plain.inj).eq_iff]

end Actor

namespace Permission

/-- The permission was built by a run of a builder, of which all names are plain texts. -/
def IsBuilt (p : Permission) : Prop :=
  ∃ acts before e after, PermissionBuilder.run acts = before ++ e :: after ∧ e.answer = .built p ∧
    ∀ c, .call c ∈ acts → ∀ v ∈ c.names, ∃ s, v = .text s

variable {p p' : Permission}

/-- The actor of a built permission passed the checks. -/
theorem IsBuilt.wellFormed (h : p.IsBuilt) {a : Actor} (ha : p.actor = some a) : a.WellFormed := by
  obtain ⟨acts, before, e, after, hrun, hanswer, hnames⟩ := h
  have hbuild : e.act = .build := by
    obtain ⟨b, act, -, rfl⟩ := PermissionBuilder.build_before_event hrun
    obtain ⟨rfl, -⟩ | ⟨c, f, -, -, he⟩ | ⟨c, b', -, -, he⟩ := PermissionBuilder.event_cases b act
    · rfl
    · rw [he] at hanswer
      cases hanswer
    · rw [he] at hanswer
      cases hanswer
  rw [PermissionBuilder.answer_of_build hrun hbuild] at hanswer
  cases hanswer
  -- the actor is that of an accepted call of the run
  obtain ⟨e', he', hactor⟩ := List.mem_filterMap.1 (List.mem_of_mem_head? ha)
  have hmem : e' ∈ PermissionBuilder.run acts := by
    rw [hrun]
    exact List.mem_append_left _ he'
  obtain ⟨b, act, hact, rfl⟩ := Trace.exists_of_mem_run hmem
  obtain ⟨rfl, he⟩ | ⟨c, f, rfl, -, he⟩ | ⟨c, b', rfl, -, he⟩ := PermissionBuilder.event_cases b act
  · rw [he] at hactor
    cases hactor
  · rw [he] at hactor
    cases hactor
  · rw [he] at hactor
    exact Actor.wellFormed_of_actor? (hnames c hact) hactor

theorem same_operations_iff {ops ops' : List Operation} :
    same (tuple (ops.map fun op => member (.operation op)))
      (tuple (ops'.map fun op => member (.operation op))) ↔
      ops = ops' := by
  simp only [same_tuples_iff, List.forall₂_map_left_iff, List.forall₂_map_right_iff,
    same_member_iff, Member.operation.injEq, List.forall₂_eq_eq_eq]

/-- Permissions are the same if they are one permission. -/
theorem IsBuilt.same_toValue_iff (hp : p.IsBuilt) (hp' : p'.IsBuilt) :
    same p.toValue p'.toValue ↔ p = p' := by
  have hactor : same ((p.actor.map Actor.toValue).getD .null)
      ((p'.actor.map Actor.toValue).getD .null) ↔
      p.actor = p'.actor := by
    cases ha : p.actor with
    | none => cases p'.actor <;> simp [Actor.toValue, same, sameAtom, number?, bytes?]
    | some a =>
      cases ha' : p'.actor with
      | none => simp [Actor.toValue, same]
      | some a' => simp [(hp.wellFormed ha).same_toValue_iff (hp'.wellFormed ha')]
  rw [toValue, toValue, same_records_iff]
  simp only [List.forall₂_cons, List.forall₂_nil_left_iff, hactor, same_operations_iff,
    true_and, and_true]
  rw [mk.injEq]

/-- The mappings of permissions are the same if they hold the same identity and the same tokens. -/
theorem same_permissionDict_iff {c c' d d' : Cell} {identity identity' : Option String}
    {tokens tokens' : List String} :
    same (Payload.permissionDict c c' identity tokens)
      (Payload.permissionDict d d' identity' tokens') ↔
      identity = identity' ∧ tokens = tokens' := by
  have htokens : same (list c' (tokens.map .text)) (list d' (tokens'.map .text)) ↔
      tokens = tokens' := by
    simp only [same_lists_iff, List.forall₂_map_left_iff, List.forall₂_map_right_iff,
      same_texts_iff, List.forall₂_eq_eq_eq]
  have hnamed := same_named_iff (c := c) (d := d) ["actor", "operations"]
    [Payload.optionalText identity, list c' (tokens.map .text)]
    [Payload.optionalText identity', list d' (tokens'.map .text)] (by decide) rfl rfl
  refine hnamed.trans ?_
  simp only [List.forall₂_cons, List.forall₂_nil_left_iff, Payload.same_optionalText_iff,
    htokens, and_true]

/-- What stands for two permissions is the same if they are one permission: an identity tells the
actor, and the tokens tell the operations. -/
theorem IsBuilt.same_iff_of_rendersAs (hp : p.IsBuilt) (hp' : p'.IsBuilt) {w w' : Value}
    (h : p.grant.RendersAs w) (h' : p'.grant.RendersAs w') : same w w' ↔ p = p' := by
  obtain ⟨c, c', rfl⟩ := renders_grant h
  obtain ⟨d, d', rfl⟩ := renders_grant h'
  have hactor : p.actor.map Actor.identity = p'.actor.map Actor.identity ↔ p.actor = p'.actor := by
    cases ha : p.actor with
    | none => cases p'.actor <;> simp
    | some a =>
      cases ha' : p'.actor with
      | none => simp
      | some a' =>
        simp only [Option.map_some, Option.some.injEq]
        exact ⟨(hp.wellFormed ha).eq_of_identity_eq (hp'.wellFormed ha'), congrArg Actor.identity⟩
  rw [same_permissionDict_iff, hactor, (List.map_injective_iff.2 Operation.token_injective).eq_iff,
    mk.injEq]

end Permission

end CredentialWrites
