import CredentialWrites.Proofs.Permission.Calls

/-!
# Calls for an actor that are refused

Five calls on a permission builder ask for an actor. They go through the same checks in the same
order: each argument has to be a text, the zone before the identifier; then the builder may not have
an actor yet; then no separator may stand where it would be read as the end of a zone. What passes
all of them sets the actor that its parts make on their own. The five differ in their arguments
alone.

* `PermissionBuilder.ActorAsk` : the arguments of a call for an actor, with what kind of actor it
  asks for.
* `PermissionBuilder.set_eq_checked` : the five calls are one sequence of checks.
* `PermissionBuilder.perform_actor_call` : what a call for an actor answers, in every state.
-/

namespace CredentialWrites

namespace Argument

/-- Why a value is refused where a text is needed. -/
def refusal (field : String) (v : Value) : ArgumentFault :=
  match v with
  | .null => .null field
  | v => .notText field v.kindName

theorem field_refusal (field : String) (v : Value) : (refusal field v).field = field := by
  unfold refusal
  split <;> rfl

theorem word_eq_error {field : String} {v : Value} (h : v.word? = none) :
    word field v = .error (.argument (refusal field v)) := by
  unfold word refusal
  cases v with
  | null => rfl
  | _ => simp only [h]

end Argument

namespace Value

/-- The value is a text with a character in it. -/
def spells (c : Char) (v : Value) : Bool :=
  v.word?.any fun w => c ∈ w.text.toList

theorem spells_iff {c : Char} {v : Value} {w : Word} (h : v.word? = some w) :
    v.spells c ↔ c ∈ w.text.toList := by
  simp [spells, h]

end Value

namespace Actor

theorem zoned_of_word {type : ActorType} {field : String} {id w : Word} {zone : Value}
    (hzone : zone.word? = some w) :
    zoned type field id zone =
      if zoneSeparator ∈ w.text.toList then .error (.argument (.separatorInZone w.text))
      else .ok ⟨type, id, some w⟩ := by
  unfold zoned
  split
  · cases hzone
  · rw [Argument.word_eq_ok_iff.2 hzone]
    rfl

end Actor

namespace PermissionBuilder

/-- The arguments of a call for an actor, with the kind of actor that it asks for. -/
structure ActorAsk where
  type : ActorType
  /-- The zone, if the call has a parameter for it. -/
  zone : Option Value
  id : Value

namespace ActorAsk

/-- The name of the parameter for the identifier. -/
def idParam : ActorType → String
  | .app => "appId"
  | .user => "userId"
  | .client => "clientId"

/-- The parameters with their arguments, in their order. -/
def params (a : ActorAsk) : List (String × Value) :=
  (a.zone.map fun zone => ("zoneId", zone)).toList ++ [(idParam a.type, a.id)]

/-- The first parameter that is given no text, with what it is given. -/
def notText? (a : ActorAsk) : Option (String × Value) :=
  a.params.find? fun p => p.2.word?.isNone

/-- The parameter in which a separator stands where it may not: the zone, or without one the
identifier, unless that is of an application. -/
def misplaced? (a : ActorAsk) : Option String :=
  match a.zone with
  | some zone => if zone.spells Actor.zoneSeparator then some "zoneId" else none
  | none => if a.type ≠ .app ∧ a.id.spells Actor.zoneSeparator then some (idParam a.type) else none

/-- The actor that the arguments make on their own. -/
def actor (a : ActorAsk) : Except Fault Actor :=
  match a.type with
  | .app => Actor.app a.id
  | .user => Actor.user a.id (a.zone.getD .null)
  | .client => Actor.client a.id (a.zone.getD .null)

end ActorAsk

/-- The arguments of a call, if it asks for an actor. -/
def Call.ask? : Call → Option ActorAsk
  | .app id => some ⟨.app, none, id⟩
  | .user id => some ⟨.user, none, id⟩
  | .zoneUser zone id => some ⟨.user, some zone, id⟩
  | .client id => some ⟨.client, none, id⟩
  | .zoneClient zone id => some ⟨.client, some zone, id⟩
  | .operation _ => none
  | .operations _ => none

/-- All arguments have to be texts. -/
def checkTexts : List (String × Value) → Except Fault Unit
  | [] => .ok ()
  | (field, v) :: ps => do
    let _ ← Argument.word field v
    checkTexts ps

theorem checkTexts_eq (ps : List (String × Value)) :
    checkTexts ps = match ps.find? fun p => p.2.word?.isNone with
      | some p => .error (.argument (Argument.refusal p.1 p.2))
      | none => .ok () := by
  induction ps with
  | nil => rfl
  | cons p ps ih =>
    obtain ⟨field, v⟩ := p
    rw [checkTexts, List.find?_cons]
    cases hv : v.word? with
    | none =>
      rw [Argument.word_eq_error hv]
      rfl
    | some w =>
      rw [Argument.word_eq_ok_iff.2 hv]
      exact ih

variable {b : PermissionBuilder} {c : Call} {ask : ActorAsk}

/-- The five calls for an actor are one sequence of checks. -/
theorem set_eq_checked (h : c.ask? = some ask) :
    b.set c = (do
      checkTexts ask.params
      b.setActor ask.actor) := by
  cases c <;> cases h
  all_goals
    simp only [set, ActorAsk.params, Option.map, Option.toList, List.nil_append,
      List.singleton_append, checkTexts, bind_assoc]
    rfl

namespace ActorAsk

theorem exists_word_of_mem {field : String} {v : Value} (h : ask.notText? = none)
    (hmem : (field, v) ∈ ask.params) : ∃ w, v.word? = some w := by
  have hsome := List.find?_eq_none.1 h _ hmem
  cases hv : v.word? with
  | none => simp [hv] at hsome
  | some w => exact ⟨w, rfl⟩

theorem actor_eq_zoned (h : ask.type ≠ .app) :
    ask.actor = (do
      Actor.zoned ask.type (idParam ask.type) (← Argument.word (idParam ask.type) ask.id)
        (ask.zone.getD .null)) := by
  obtain ⟨type, zone, id⟩ := ask
  cases type with
  | app => exact absurd rfl h
  | user | client => rfl

/-- Out of texts, an actor is made unless a separator is misplaced. -/
theorem actor_of_texts (happ : ask.type = .app → ask.zone = none) (htexts : ask.notText? = none) :
    match ask.misplaced? with
    | some field => ∃ cause, ask.actor = .error (.argument cause) ∧ cause.field = field
    | none => ∃ a, ask.actor = .ok a := by
  have hid : (idParam ask.type, ask.id) ∈ ask.params := by simp [params]
  obtain ⟨w, hw⟩ := exists_word_of_mem htexts hid
  by_cases htype : ask.type = .app
  · -- an identifier of an application may hold anything
    have hactor : ask.actor = .ok ⟨.app, w, none⟩ := by
      simp only [actor, htype]
      exact Actor.app_eq_ok_iff.2 (by rw [hw]; rfl)
    simp [misplaced?, happ htype, htype, hactor]
  rw [actor_eq_zoned htype, Argument.word_eq_ok_iff.2 hw]
  change match ask.misplaced? with
    | some field => ∃ cause, Actor.zoned _ _ w (ask.zone.getD .null) = .error (.argument cause) ∧
        cause.field = field
    | none => ∃ a, Actor.zoned _ _ w (ask.zone.getD .null) = .ok a
  cases hzone : ask.zone with
  | none =>
    simp only [misplaced?, hzone, ne_eq, htype, not_false_eq_true, true_and, Value.spells_iff hw,
      Option.getD_none, Actor.zoned]
    by_cases hmem : Actor.zoneSeparator ∈ w.text.toList
    · simp [hmem, ArgumentFault.field]
    · simp [hmem]
  | some zone =>
    have hmem : ("zoneId", zone) ∈ ask.params := by simp [params, hzone]
    obtain ⟨z, hz⟩ := exists_word_of_mem htexts hmem
    simp only [misplaced?, hzone, Value.spells_iff hz, Option.getD_some, Actor.zoned_of_word hz]
    by_cases hmem : Actor.zoneSeparator ∈ z.text.toList
    · simp [hmem, ArgumentFault.field]
    · simp [hmem]

end ActorAsk

theorem Call.zone_of_app (h : c.ask? = some ask) (happ : ask.type = .app) : ask.zone = none := by
  cases c <;> cases h
  case app => rfl
  all_goals cases happ

theorem perform_of_error {f : Fault} (h : b.set c = .error f) :
    b.perform (.call c) = (b, .refused f, []) := by
  simp [perform, h]

/-- **What a call for an actor answers.** If an argument is no text, the call is refused for the
first parameter of which that is true, as missing or as of another kind. Otherwise, if there is an
actor already, it is refused for that. Otherwise, if a zone is given and holds a separator, it is
refused for the zone, and if none is given and the identifier of a user or a client holds one, for
the identifier. A refused call leaves the builder as it was. Otherwise the call sets the actor that
its arguments make on their own. -/
theorem perform_actor_call (b : PermissionBuilder) (h : c.ask? = some ask) :
    match ask.notText? with
    | some (field, v) => b.perform (.call c) =
      (b, .refused (.argument (Argument.refusal field v)), [])
    | none =>
      if b.actor.isSome then b.perform (.call c) =
        (b, .refused (.state "only one actor can be specified"), [])
      else match ask.misplaced? with
        | some field => ∃ cause, b.perform (.call c) = (b, .refused (.argument cause), []) ∧
            cause.field = field
        | none => ∃ a, ask.actor = .ok a ∧
            b.perform (.call c) = ({ b with actor := some a }, .self, []) := by
  have hset := set_eq_checked (b := b) h
  rw [checkTexts_eq] at hset
  cases htexts : ask.notText? with
  | some p =>
    rw [ActorAsk.notText?] at htexts
    rw [htexts] at hset
    exact perform_of_error hset
  | none =>
    have hfind := htexts
    rw [ActorAsk.notText?] at hfind
    rw [hfind] at hset
    replace hset : b.set c = b.setActor ask.actor := hset
    cases hactor : b.actor with
    | some a =>
      refine perform_of_error (hset.trans ?_)
      simp only [setActor, hactor]
      rfl
    | none =>
      have hopen : b.setActor ask.actor = (do return { b with actor := some (← ask.actor) }) := by
        simp only [setActor, hactor]
        rfl
      have hmade := ask.actor_of_texts (Call.zone_of_app h) htexts
      simp only [Option.isSome_none, Bool.false_eq_true, if_false]
      cases hmisplaced : ask.misplaced? with
      | some field =>
        rw [hmisplaced] at hmade
        obtain ⟨cause, hfault, hfield⟩ := hmade
        rw [hopen, hfault] at hset
        exact ⟨cause, perform_of_error hset, hfield⟩
      | none =>
        rw [hmisplaced] at hmade
        obtain ⟨a, ha⟩ := hmade
        rw [hopen, ha] at hset
        exact ⟨a, ha, by simp only [perform, hset]; rfl⟩

/-- A separator in the zone refuses the call, and only if the builder has no actor yet. -/
theorem perform_actor_call_misplaced :
    (Call.zoneUser (.text "a/b") (.text "u")).ask? = some ⟨.user, some (.text "a/b"), .text "u"⟩ ∧
    (∃ cause, start.perform (.call (.zoneUser (.text "a/b") (.text "u"))) =
      (start, .refused (.argument cause), []) ∧
      cause.field = "zoneId") ∧
    (PermissionBuilder.mk (some ⟨.app, .plain "x", none⟩) none).perform
        (.call (.zoneUser (.text "a/b") (.text "u"))) =
      (⟨some ⟨.app, .plain "x", none⟩, none⟩,
        .refused (.state "only one actor can be specified"), []) := by
  have hask : (Call.zoneUser (.text "a/b") (.text "u")).ask? =
      some ⟨.user, some (.text "a/b"), .text "u"⟩ := rfl
  exact ⟨hask, perform_actor_call start hask,
    perform_actor_call ⟨some ⟨.app, .plain "x", none⟩, none⟩ hask⟩

end PermissionBuilder

end CredentialWrites
