import CredentialWrites.Proofs.Payload.Model
import CredentialWrites.Proofs.Request.Pair
import CredentialWrites.Proofs.Trace

/-!
# The trail of two builders

With debug logging on, two builders leave a trail of records. A value that takes the place of
another is told with the name that is set by then and with the types of both, and a build is told
with what it answers. Nothing else is told, and nothing of a call that is refused, however far it
came.

* `RequestBuilder.outline_of_gives_set` : what an accepted call does to what is shown of a builder.
* `Session.Exchange.trail` : the records that a call is to leave, from what was reported of the
  calls before it.
* `Session.trail_of_run` : the records that the calls of a run leave.
-/

namespace CredentialWrites

open Making

namespace RequestBuilder

/-- The name that a call sets if it is accepted. -/
def Call.name? : Call → Option CredentialName
  | .name v => nameIn? v
  | _ => none

/-- The type of the value that a call sets if it is accepted. -/
def Call.type? : Call → Option ValueType
  | .passwordValue _ => some .password
  | .jsonValue _ => some .json
  | _ => none

/-- The record of a value that takes the place of another. -/
def replaced (name : Option CredentialName) (old new : ValueType) : LogRecord :=
  .trace "src.credhub.request" ("Replacing " ++ old.token ++ " credential value with " ++
    new.token ++ " value") [("credential_name", (name.map fun n => .ofWord n.word).getD .null)]

/-- The type of the value of a builder. -/
def type (b : RequestBuilder) : Option ValueType :=
  b.value.map CredentialValue.type

variable {b : RequestBuilder} {s t : State}

theorem outline_setValue (b : RequestBuilder) (v : CredentialValue) :
    (b.setValue v).1.name = b.name ∧ (b.setValue v).1.type = some v.type ∧
      (b.setValue v).2 = (b.type.map fun old => replaced b.name old v.type).toList := by
  refine ⟨rfl, rfl, ?_⟩
  unfold setValue type
  cases b.value <;> rfl

/-- What an accepted call does to the name and to the type of a builder, and what it records. -/
theorem outline_of_gives_set {c : Call} {r : RequestBuilder × List LogRecord}
    (h : (b.set c).Gives s r t) : r.1.name = c.name?.or b.name ∧ r.1.type = c.type?.or b.type ∧
      r.2 = (b.type.bind fun old => c.type?.map (replaced b.name old)).toList := by
  cases c with
  | passwordValue v =>
    obtain ⟨w, u, -, h⟩ := gives_bind.1 h
    obtain ⟨rfl, -⟩ := gives_pure.1 h
    obtain ⟨hname, htype, hrecords⟩ := outline_setValue b (.password w)
    exact ⟨hname, htype, hrecords.trans (by cases b.type <;> rfl)⟩
  | jsonValue v =>
    obtain ⟨es, u, -, h⟩ := gives_bind.1 h
    obtain ⟨value, u', hvalue, h⟩ := gives_bind.1 h
    obtain ⟨es', u'', -, hvalue⟩ := gives_bind.1 hvalue
    obtain ⟨rfl, -⟩ := gives_pure.1 hvalue
    obtain ⟨rfl, -⟩ := gives_pure.1 h
    obtain ⟨hname, htype, hrecords⟩ := outline_setValue b (.json es')
    exact ⟨hname, htype, hrecords.trans (by cases b.type <;> rfl)⟩
  | name v =>
    obtain ⟨n, u, hn, h⟩ := gives_bind.1 h
    obtain ⟨rfl, -⟩ := gives_pure.1 h
    have hn' : nameIn? v = some n := nameOf_eq_ok_iff.1 (gives_lift.1 hn).1
    simp [Call.name?, Call.type?, hn', type]
  | overwrite v =>
    obtain ⟨o, u, -, h⟩ := gives_bind.1 h
    obtain ⟨rfl, -⟩ := gives_pure.1 h
    simp [Call.name?, Call.type?, type]
  | additionalPermission v =>
    obtain ⟨g, u, -, h⟩ := gives_bind.1 h
    obtain ⟨rfl, -⟩ := gives_pure.1 h
    simp [Call.name?, Call.type?, type, addGrants]
  | additionalPermissions v =>
    obtain ⟨gs, u, -, h⟩ := gives_bind.1 h
    obtain ⟨rfl, -⟩ := gives_pure.1 h
    simp [Call.name?, Call.type?, type, addGrants]

theorem SameOutline.type_eq {b' : RequestBuilder} (h : b.SameOutline b') : b'.type = b.type :=
  h.type.symm

end RequestBuilder

namespace Session

/-- An act on one of two builders. -/
inductive PairAct where
  | request (act : RequestBuilder.Act)
  | permission (act : PermissionBuilder.Act)

/-- A call on one of two builders, with where its result is stored. -/
structure PairCall where
  act : PairAct
  store : Option String

/-- The step that a call is. -/
def PairCall.step (on pon : String) (c : PairCall) : ScriptStep :=
  match c.act with
  | .request act => actStep on act c.store false
  | .permission act => permissionStep pon act c.store

/-- A call with what was reported of it, and the session after it. -/
structure Exchange where
  act : PairAct
  report : Report
  after : Session

/-- A call in a session. -/
def exchange (on pon : String) (s : Session) (c : PairCall) : Exchange :=
  ⟨c.act, (s.step (c.step on pon)).2, (s.step (c.step on pon)).1⟩

/-- Calls on two new builders, one after the other. -/
def exchanges (s : Session) (on pon : String) (calls : List PairCall) : List Exchange :=
  Trace.run (exchange on pon) Exchange.after (s.withPair on pon) calls

/-- What is reported of the calls is what a run of the session reports of their steps. -/
theorem map_report_exchanges (s : Session) (on pon : String) (calls : List PairCall) :
    (s.exchanges on pon calls).map Exchange.report =
      ((s.withPair on pon).run (calls.map (PairCall.step on pon))).map Prod.snd := by
  unfold exchanges
  generalize s.withPair on pon = s'
  induction calls generalizing s' with
  | nil => rfl
  | cons c calls ih => exact congrArg _ (ih _)

/-- The part of a value with a name, if there is one. -/
def part (v : Value) (name : String) : Value :=
  (v.storedAttr name).toOption.getD .null

/-- The number of items of a value, if it has any. -/
def count (v : Value) : Nat :=
  v.length.toOption.getD 0

/-- The record of a request that was built. -/
def builtRequest (r : Value) : LogRecord :=
  .trace "src.credhub.request" "Built credential write request"
    [("credential_name", part r "name"), ("value_type", part r "type"),
      ("permission_count", .int (count (part r "additional_permissions")))]

/-- The record of a permission that was built. -/
def builtPermission (p : Value) : LogRecord :=
  .trace "src.credhub.permissions" "Built credential permission"
    [("actor", part (part p "actor") "identity"),
      ("operation_count", .int (count (part p "operations")))]

namespace Exchange

/-- The name that was set. -/
def name? (e : Exchange) : Option CredentialName :=
  match e.act, e.report.outcome with
  | .request (.call c), .ok _ => c.name?
  | _, _ => none

/-- The type of the value that was set. -/
def type? (e : Exchange) : Option ValueType :=
  match e.act, e.report.outcome with
  | .request (.call c), .ok _ => c.type?
  | _, _ => none

/-- The name that was set last. -/
def lastName (es : List Exchange) : Option CredentialName :=
  (es.filterMap name?).getLast?

/-- The type of the value that was set last. -/
def lastType (es : List Exchange) : Option ValueType :=
  (es.filterMap type?).getLast?

/-- The records that a call is to leave after some others. -/
def trail (past : List Exchange) (e : Exchange) : List LogRecord :=
  match e.act, e.report.outcome with
  | .request (.call c), .ok _ =>
    ((lastType past).bind fun old =>
      c.type?.map (RequestBuilder.replaced (lastName past) old)).toList
  | .request .build, .ok (.value r) => [builtRequest r]
  | .permission .build, .ok (.value p) => [builtPermission p]
  | _, _ => []

theorem lastName_append (es : List Exchange) (e : Exchange) :
    lastName (es ++ [e]) = e.name?.or (lastName es) := by
  cases h : e.name? <;> simp [lastName, h]

theorem lastType_append (es : List Exchange) (e : Exchange) :
    lastType (es ++ [e]) = e.type?.or (lastType es) := by
  cases h : e.type? <;> simp [lastType, h]

/-- What is told of a value that takes the place of another. -/
theorem trail_of_type? {past : List Exchange} {e : Exchange} {c : RequestBuilder.Call}
    {old new : ValueType}
    (hact : e.act = .request (.call c)) (hok : e.report.outcome.toOption.isSome)
    (hold : lastType past = some old)
    (hnew : c.type? = some new) : e.trail past =
      [RequestBuilder.replaced (lastName past) old new] := by
  cases houtcome : e.report.outcome with
  | error f =>
    rw [houtcome] at hok
    cases hok
  | ok a =>
    simp only [trail, hact, houtcome, hold, hnew]
    rfl

end Exchange

theorem builtRequest_toValue (r : Request) : builtRequest r.toValue = r.trace := by
  have hpermissions : part r.toValue "additional_permissions" =
      .tuple (r.permissions.map Grant.toValue) := rfl
  have hname : part r.toValue "name" = Request.nameField r.name := by
    rw [part, r.storedAttr_name]
    rfl
  have htype : part r.toValue "type" =
      (r.value.map fun v => Value.text v.type.token).getD .null := by
    rw [part, r.storedAttr_type]
    rfl
  have hcount : count (.tuple (r.permissions.map Grant.toValue)) = r.permissions.length :=
    List.length_map _
  rw [builtRequest, hpermissions, hname, htype, hcount]
  rfl

theorem builtPermission_toValue (p : Permission) : builtPermission p.toValue = p.trace := by
  have hactor : part (part p.toValue "actor") "identity" =
      (p.actor.map fun a => Value.text a.identity).getD .null := by
    change part ((p.actor.map Actor.toValue).getD .null) "identity" = _
    cases p.actor with
    | none => rfl
    | some a =>
      change (a.toValue.storedAttr "identity").toOption.getD .null = _
      rw [a.storedAttr_identity]
      rfl
  have hcount : count (part p.toValue "operations") = p.operations.length := List.length_map _
  rw [builtPermission, hactor, hcount]
  rfl

/-! ### One call -/

section

open Exchange

variable {s : Session} {on pon : String} {past : List Exchange} {b : RequestBuilder}
    {pb : PermissionBuilder}
  {store : Option String}

/-- Two registers hold two builders, and the one for requests shows what was set last. -/
def Told (on pon : String) (past : List Exchange) (s : Session) : Prop :=
  ∃ b pb, s.HasPair on pon b pb ∧ b.name = lastName past ∧ b.type = lastType past

/-- A call on two builders after some others: it leaves its records, and builds are answered. -/
structure Follows (s : Session) (past : List Exchange) (e : Exchange) : Prop where
  records : e.report.records = if s.recorded then e.trail past else []
  output : e.report.output = (e.trail past).flatMap (s.log.write s.now)
  request : e.act = .request .build → ∃ r : Request, e.report.outcome = .ok (.value r.toValue)
  permission : e.act = .permission .build → ∃ p : Permission,
    e.report.outcome = .ok (.value p.toValue)

theorem follows_of_reports {e : Exchange} {outcome : Except Fault Answer}
    (h : s.Reports e.report outcome (e.trail past))
    (hrequest : e.act = .request .build → ∃ r : Request, outcome = .ok (.value r.toValue))
    (hpermission : e.act = .permission .build → ∃ p : Permission,
      outcome = .ok (.value p.toValue)) :
    Follows s past e := by
  refine ⟨h.records, h.output, ?_, ?_⟩
  · rw [h.outcome]
    exact hrequest
  · rw [h.outcome]
    exact hpermission

theorem told_append {e : Exchange} (h : e.after.HasPair on pon b pb)
    (hname : b.name = e.name?.or (lastName past)) (htype : b.type = e.type?.or (lastType past)) :
    Told on pon (past ++ [e]) e.after :=
  ⟨b, pb, h, hname.trans (lastName_append past e).symm, htype.trans (lastType_append past e).symm⟩

/-- What an accepted call records is a debug record of the library. -/
theorem isTrace_of_gives_set {c : RequestBuilder.Call} {r : RequestBuilder × List LogRecord}
    {made t : State} (h : (b.set c).Gives made r t) : ∀ x ∈ r.2, IsTrace x := by
  intro x hx
  rw [(RequestBuilder.outline_of_gives_set h).2.2, Option.mem_toList] at hx
  obtain ⟨old, -, hx⟩ := Option.bind_eq_some_iff.1 hx
  obtain ⟨new, -, rfl⟩ := Option.map_eq_some_iff.1 hx
  exact .intro (by decide +kernel) _ _

/-- A call on the builder for requests. -/
theorem exchange_request (act : RequestBuilder.Act) (h : s.HasPair on pon b pb)
    (hname : b.name = lastName past)
    (htype : b.type = lastType past) (hdebug : s.LogsDebug)
    (hstore : store ≠ some on ∧ store ≠ some pon) :
    let e := exchange on pon s ⟨.request act, store⟩
    Follows s past e ∧ Told on pon (past ++ [e]) e.after := by
  intro e
  have hact : e.act = .request act := rfl
  cases act with
  | build =>
    have hperform : b.perform .build s.made = (b, .built b.build, [b.build.trace], s.made) := rfl
    have htrace : IsTrace b.build.trace := .intro (by decide +kernel) _ _
    obtain ⟨hpair, hreports⟩ := step_actStep h hdebug hstore hperform
      (List.forall_mem_singleton.2 htrace)
    have houtcome : e.report.outcome = .ok (.value b.build.toValue) := hreports.outcome
    have htrail : e.trail past = [b.build.trace] := by
      rw [trail, hact, houtcome, ← builtRequest_toValue]
    refine ⟨follows_of_reports (htrail ▸ hreports) (fun _ => ⟨_, rfl⟩) (fun h => by cases h),
      told_append hpair ?_ ?_⟩
    · rw [name?, hact, hname, Option.none_or]
    · rw [type?, hact, htype, Option.none_or]
  | call c =>
    rcases gives_or_fails (b.set c) s.made with ⟨r, t, hset⟩ | ⟨f, t, hset⟩
    · obtain ⟨hname', htype', hrecords⟩ := RequestBuilder.outline_of_gives_set hset
      obtain ⟨hpair, hreports⟩ :=
        step_actStep h hdebug hstore (RequestBuilder.perform_of_gives hset)
          (isTrace_of_gives_set hset)
      have houtcome : e.report.outcome = .ok .self := hreports.outcome
      have htrail : e.trail past = r.2 := by
        rw [trail, hact, houtcome, hrecords, hname, htype]
      refine ⟨follows_of_reports (htrail ▸ hreports) (fun h => by cases h) (fun h => by cases h),
        told_append hpair ?_ ?_⟩
      · rw [name?, hact, houtcome, hname', hname]
      · rw [type?, hact, houtcome, htype', htype]
    · obtain ⟨hpair, hreports⟩ :=
        step_actStep h hdebug hstore (RequestBuilder.perform_of_fails hset) (List.forall_mem_nil _)
      have houtcome : e.report.outcome = .error f := hreports.outcome
      have htrail : e.trail past = [] := by
        rw [trail, hact, houtcome]
      refine ⟨follows_of_reports (htrail ▸ hreports) (fun h => by cases h) (fun h => by cases h),
        told_append hpair ?_ ?_⟩
      · rw [name?, hact, houtcome, hname, Option.none_or]
      · rw [type?, hact, houtcome, htype, Option.none_or]

/-- A call on the builder for permissions. -/
theorem exchange_permission (act : PermissionBuilder.Act) (h : s.HasPair on pon b pb)
    (hname : b.name = lastName past)
    (htype : b.type = lastType past) (hdebug : s.LogsDebug)
    (hstore : store ≠ some on ∧ store ≠ some pon) :
    let e := exchange on pon s ⟨.permission act, store⟩
    Follows s past e ∧ Told on pon (past ++ [e]) e.after := by
  intro e
  have hact : e.act = .permission act := rfl
  have htold {pb' : PermissionBuilder}
  (hnext : ∃ b', b.SameOutline b' ∧ e.after.HasPair on pon b' pb') :
      Told on pon (past ++ [e]) e.after := by
    obtain ⟨b', hb, hpair⟩ := hnext
    refine told_append hpair ?_ ?_
    · rw [name?, hact, ← hb.name, hname, Option.none_or]
    · rw [type?, hact, hb.type_eq, htype, Option.none_or]
  cases act with
  | build =>
    have hperform : pb.perform .build = (pb, .built pb.build, [pb.build.trace]) := rfl
    have htrace : IsTrace pb.build.trace := .intro (by decide +kernel) _ _
    obtain ⟨hnext, hreports⟩ := step_permissionStep h hdebug hstore hperform
      (List.forall_mem_singleton.2 htrace)
    have houtcome : e.report.outcome = .ok (.value pb.build.toValue) := hreports.outcome
    have htrail : e.trail past = [pb.build.trace] := by
      rw [trail, hact, houtcome, ← builtPermission_toValue]
    exact ⟨follows_of_reports (htrail ▸ hreports) (fun h => by cases h) (fun _ => ⟨_, rfl⟩),
      htold hnext⟩
  | call c =>
    have htrail : e.trail past = [] := by
      rw [trail, hact]
    have hperform : ∃ pb' answer, pb.perform (.call c) = (pb', answer, []) := by
      dsimp only [PermissionBuilder.perform]
      split
      · exact ⟨_, _, rfl⟩
      · exact ⟨_, _, rfl⟩
    obtain ⟨pb', answer, hperform⟩ := hperform
    obtain ⟨hnext, hreports⟩ := step_permissionStep h hdebug hstore hperform (List.forall_mem_nil _)
    exact ⟨follows_of_reports (htrail ▸ hreports) (fun h => by cases h) (fun h => by cases h),
      htold hnext⟩

theorem exchange_follows {c : PairCall} (h : Told on pon past s) (hdebug : s.LogsDebug)
    (hstore : c.store ≠ some on ∧ c.store ≠ some pon) :
    Follows s past (exchange on pon s c) ∧
      Told on pon (past ++ [exchange on pon s c]) (exchange on pon s c).after := by
  obtain ⟨b, pb, hpair, hname, htype⟩ := h
  obtain ⟨act | act, store⟩ := c
  · exact exchange_request act hpair hname htype hdebug hstore
  · exact exchange_permission act hpair hname htype hdebug hstore

/-- A call changes nothing about the log. -/
theorem logsAlike_exchange (on pon : String) (s : Session) (c : PairCall) :
    LogsAlike (exchange on pon s c).after s := by
  refine logsAlike_step fun fields => ?_
  obtain ⟨act | act, store⟩ := c
  · exact fun h => by cases h
  · exact fun h => by cases h

end

/-! ### Runs -/

/-- **The trail of two builders.** Let debug records of the library be let through, whatever else
the log is like, and let two new builders be called in any order, with any arguments. Each call
leaves exactly these records: a value that is accepted while one is set tells the name that was set
last and the types of both, and a build tells the name, the type and the number of permissions of
the request that it answers, or the actor and the number of operations of the permission. Calls that
are refused and all others leave none. Builds are always answered. -/
theorem trail_of_run {s : Session} {on pon : String} {calls : List PairCall}
    {before after : List Exchange} {e : Exchange} (hdebug : s.LogsDebug) (hne : on ≠ pon)
    (hstore : ∀ c ∈ calls, c.store ≠ some on ∧ c.store ≠ some pon)
    (h : s.exchanges on pon calls = before ++ e :: after) :
    e.report.records = (if s.recorded then e.trail before else []) ∧
      e.report.output = (e.trail before).flatMap (s.log.write s.now) ∧
      (e.act = .request .build → ∃ r : Request, e.report.outcome = .ok (.value r.toValue)) ∧
      (e.act = .permission .build → ∃ p : Permission,
        e.report.outcome = .ok (.value p.toValue)) := by
  obtain ⟨hpair, hlogs⟩ := hasPair_withPair s hne
  have hdebug' {s' : Session} (hs' : LogsAlike s' s) : s'.LogsDebug := by
    unfold LogsDebug
    rw [hs'.recorded, hs'.log]
    exact hdebug
  -- before every call the builders show what was set last, and the log is the one from the start
  obtain ⟨s', c, hc, ⟨hlogs', htold⟩, rfl⟩ := Trace.inv_of_mem_run
    (I := fun past s' => LogsAlike s' s ∧ Told on pon past s') h ⟨hlogs, _, _, hpair, rfl, rfl⟩
    fun past s' c hc ⟨hs', htold⟩ => by
      have halike := logsAlike_exchange on pon s' c
      exact ⟨⟨halike.log.trans hs'.log, halike.now.trans hs'.now,
        halike.recorded.trans hs'.recorded⟩, (exchange_follows htold (hdebug' hs') (hstore c hc)).2⟩
  obtain ⟨hrecords, houtput, hrequest, hpermission⟩ :=
    (exchange_follows htold (hdebug' hlogs') (hstore c hc)).1
  rw [hlogs'.recorded] at hrecords
  rw [hlogs'.log, hlogs'.now] at houtput
  exact ⟨hrecords, houtput, hrequest, hpermission⟩

/-- Calls on two builders, with a document that has no copy and a second actor among them. -/
def trailCalls : List PairCall :=
  [⟨.request (.call (.passwordValue (.text "s"))), none⟩,
    ⟨.request (.call (.name (.text "/n"))), none⟩,
    ⟨.permission (.call (.app (.text "a"))), none⟩,
    ⟨.request (.call (.jsonValue (.map [0] [(.text "k", .list [1] [.stream [2] []])]))), none⟩,
    ⟨.permission (.call (.user (.text "u"))), none⟩,
    ⟨.request (.call (.jsonValue (.map [0] [(.text "k", .bool true)]))), none⟩,
    ⟨.permission .build, some "p"⟩,
    ⟨.request .build, some "r"⟩]

/-- The document that is accepted takes the place of the password. -/
theorem trail_of_run_of_trailCalls :
    ∃ before e rest, loggingSession.exchanges "on" "pon" trailCalls = before ++ e :: rest ∧
      e.report.records = [RequestBuilder.replaced (some ⟨.plain "/n"⟩) .password .json] := by
  have hstore : ∀ c ∈ trailCalls, c.store ≠ some "on" ∧ c.store ≠ some "pon" := by decide +kernel
  have key (c : RequestBuilder.Call) (hc : c.type? = some .json)
      (h : ∃ before e rest, loggingSession.exchanges "on" "pon" trailCalls = before ++ e :: rest ∧
        e.act = .request (.call c) ∧ e.report.outcome.toOption.isSome ∧
        Exchange.lastType before = some .password ∧
        Exchange.lastName before = some ⟨.plain "/n"⟩) :
      ∃ before e rest, loggingSession.exchanges "on" "pon" trailCalls = before ++ e :: rest ∧
        e.report.records = [RequestBuilder.replaced (some ⟨.plain "/n"⟩) .password .json] := by
    obtain ⟨before, e, rest, hrun, hact, hok, htype, hname⟩ := h
    refine ⟨before, e, rest, hrun, ?_⟩
    have hdebug : loggingSession.LogsDebug := logsDebug_of_recorded rfl
    rw [(trail_of_run hdebug (by decide) hstore hrun).1,
      Exchange.trail_of_type? hact hok htype hc, hname]
    rfl
  exact key _ rfl ⟨[_, _, _, _, _], _, _, rfl, rfl,
    by decide +kernel, by decide +kernel, by decide +kernel⟩

end Session

end CredentialWrites
