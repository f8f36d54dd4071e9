import CredentialWrites.Proofs.Permission.InSession
import CredentialWrites.Proofs.Request.Region
import CredentialWrites.Proofs.Request.Secrecy
import CredentialWrites.Proofs.Script.Likeness

/-!
# Two builders in a session

A builder for requests and one for permissions are in two registers of a session. They are two
objects, and each keeps what accumulates in an object of its own, so that an act on one of them
leaves the other as it is. At most the documents and permissions that the builder for requests was
given are changed, but neither their types nor their number.

* `Session.HasPair` : two registers hold two builders.
* `Session.step_actStep`, `Session.step_permissionStep` : what an act on one of them answers and
  leaves behind.
-/

namespace CredentialWrites

open Making

/-! ### Builders that stay as they are -/

namespace Value

variable {v w : Value} {others : List Cell} {now : Nat}

/-- Two values are different objects, and none of some others. -/
def AreApart (v w : Value) (others : List Cell) (now : Nat) : Prop :=
  v.IsApart (others ++ w.cell?.toList) now ∧ w.IsApart others now

theorem AreApart.left (h : v.AreApart w others now) : v.IsApart others now :=
  fun c hc => ⟨fun hmem => (h.1 c hc).1 (List.mem_append_left _ hmem), (h.1 c hc).2⟩

theorem AreApart.symm (h : v.AreApart w others now) : w.AreApart v others now := by
  refine ⟨fun c hc => ⟨?_, (h.2 c hc).2⟩, h.left⟩
  rw [List.mem_append, not_or]
  refine ⟨(h.2 c hc).1, fun hmem => ?_⟩
  -- an object that is both would be among the others of the first
  have hv : v.cell? = some c := by simpa using hmem
  exact (h.1 c hv).1 (List.mem_append_right _ (by simp [hc]))

/-- What keeps permissions goes on keeping as many when another object is replaced. -/
theorem IsKept.replace {o : Option (List Grant)} {cell : Cell}
    (h : v.IsKept (o.map fun gs => gs.map Grant.toValue)) (hne : v.cell? ≠ some cell)
    (new : Value) :
    (Value.replace cell new v).IsKept
        ((o.map (List.map (Grant.replace cell new))).map fun gs => gs.map Grant.toValue) ∧
      (Value.replace cell new v).cell? = v.cell? := by
  cases o with
  | none =>
    obtain rfl : v = .null := h
    exact ⟨rfl, rfl⟩
  | some gs =>
    obtain ⟨c, rfl⟩ := h
    have hc : c ≠ cell := fun heq => hne (congrArg some heq)
    rw [Value.replace, if_neg hc, Grant.replaceAll_toValue]
    exact ⟨⟨c, rfl⟩, rfl⟩

end Value

namespace RequestBuilder

/-- A request builder with permissions in a list of its own, of which nothing is fixed but what is
shown. -/
def Resembles (b : RequestBuilder) (n : Nat) (cell : Option Cell) (v : Value) : Prop :=
  ∃ b' permissions, v = .object .requestBuilder [n] (b'.attrs permissions) ∧ b.SameOutline b' ∧
    permissions.IsKept (b'.permissions.map fun gs => gs.map Grant.toValue) ∧
    permissions.cell? = cell

/-- A builder still resembles what it was when another object is replaced. -/
theorem Resembles.replace {b : RequestBuilder} {n : Nat} {cell : Option Cell} {c : Cell}
    {v new : Value} (h : b.Resembles n cell v) (hn : c ≠ [n]) (hcell : cell ≠ some c) :
    b.Resembles n cell (Value.replace c new v) := by
  obtain ⟨b', permissions, rfl, hb, hkept, rfl⟩ := h
  obtain ⟨hkept', hcell'⟩ := hkept.replace hcell new
  refine ⟨{ b' with
      value := b'.value.map (CredentialValue.replace c new)
      permissions := b'.permissions.map (List.map (Grant.replace c new)) },
    Value.replace c new permissions, ?_, ⟨hb.name, hb.overwrite, ?_, ?_⟩, hkept', hcell'⟩
  · rw [Value.replace, if_neg (Ne.symm hn)]
    exact congrArg _ (replace_attrs c new b' permissions _)
  · rw [hb.type]
    rcases b'.value with _ | _ | _ <;> rfl
  · rw [hb.count]
    cases b'.permissions <;> simp

end RequestBuilder

namespace PermissionBuilder

/-- All objects in a builder are the builder itself and the list of its operations. -/
theorem within_attrs (b : PermissionBuilder) {cell : Cell} {operations : Value}
    (h : operations.IsKept (b.operations.map operationValues)) :
    (Value.object .permissionBuilder cell (b.attrs operations)).Within
      fun c => c = cell ∨ operations.cell? = some c := by
  have hactor : ((b.actor.map Actor.toValue).getD .null).Within
      fun c => c = cell ∨ operations.cell? = some c := by
    rcases b.actor with _ | ⟨type, id, _ | zone⟩
    · trivial
    · exact ⟨trivial, Value.within_ofWord id, trivial, trivial⟩
    · exact ⟨trivial, Value.within_ofWord id, Value.within_ofWord zone, trivial⟩
  refine ⟨.inl rfl, hactor, ?_, trivial⟩
  cases hb : b.operations with
  | none =>
    rw [hb] at h
    obtain rfl : operations = .null := h
    trivial
  | some ops =>
    rw [hb] at h
    obtain ⟨c, rfl⟩ := h
    refine ⟨.inr rfl, Value.withinAll_iff.2 fun v hv => ?_⟩
    obtain ⟨op, -, rfl⟩ := List.mem_map.1 hv
    trivial

end PermissionBuilder

namespace Session

variable {s : Session} {on pon : String}

/-- What a register holds keeps a property when the parts of a builder and the builder are put in
place of themselves, if replacing any of these keeps it. -/
theorem lookup_putBuilder_of_replace {P : Value → Prop} {kind : ObjectKind} {cell : Cell}
    {attrs : List (String × Value)} (h : ∃ v, s.registers.lookup on = some v ∧ P v)
    (hstep : ∀ c new v, c = cell ∨ (∃ a ∈ attrs, a.2.cell? = some c) → P v →
      P (Value.replace c new v)) :
    ∃ v, (s.putBuilder kind cell attrs).registers.lookup on = some v ∧ P v := by
  have hput (s' : Session) (new : Value)
      (hnew : ∀ c, new.cell? = some c → c = cell ∨ ∃ a ∈ attrs, a.2.cell? = some c)
      (h' : ∃ v, s'.registers.lookup on = some v ∧ P v) :
      ∃ v, (s'.put new).registers.lookup on = some v ∧ P v := by
    obtain ⟨v, hv, hP⟩ := h'
    unfold put
    split
    · rename_i c hc
      exact ⟨_, by rw [lookup_replace, hv, Option.map_some], hstep c new v (hnew c hc) hP⟩
    · exact ⟨v, hv, hP⟩
  have hall (news : List Value) (hnews : ∀ new ∈ news, ∃ a ∈ attrs, a.2 = new) :
      ∀ s' : Session, (∃ v, s'.registers.lookup on = some v ∧ P v) →
        ∃ v, (news.foldl put s').registers.lookup on = some v ∧ P v := by
    induction news with
    | nil => exact fun _ h' => h'
    | cons new news ih =>
      rw [List.forall_mem_cons] at hnews
      obtain ⟨⟨a, ha, rfl⟩, hrest⟩ := hnews
      exact fun s' h' => ih hrest _ (hput s' a.2 (fun c hc => .inr ⟨a, ha, hc⟩) h')
  refine hput _ _ (fun c hc => .inl (Option.some.inj hc).symm) (hall _ (fun new hnew => ?_) s h)
  obtain ⟨a, ha, rfl⟩ := List.mem_map.1 hnew
  exact ⟨a, ha, rfl⟩

/-- The parts of a builder for requests have no identity, but for the list of its permissions. -/
theorem cell?_of_mem_attrs {b : RequestBuilder} {permissions : Value} {c : Cell}
    (h : ∃ a ∈ b.attrs permissions, a.2.cell? = some c) : permissions.cell? = some c := by
  obtain ⟨a, ha, hc⟩ := h
  simp only [RequestBuilder.attrs, List.mem_cons, List.not_mem_nil, or_false] at ha
  obtain rfl | rfl | rfl | rfl := ha
  · cases hname : b.name <;> rw [hname] at hc <;> cases hc
  · cases hc
  · rcases hvalue : b.value with _ | _ | _ <;> rw [hvalue] at hc <;> cases hc
  · exact hc

theorem cell?_of_mem_permissionAttrs {b : PermissionBuilder} {operations : Value} {c : Cell}
    (h : ∃ a ∈ b.attrs operations, a.2.cell? = some c) : operations.cell? = some c := by
  obtain ⟨a, ha, hc⟩ := h
  simp only [PermissionBuilder.attrs, List.mem_cons, List.not_mem_nil, or_false] at ha
  obtain rfl | rfl := ha
  · cases hactor : b.actor <;> rw [hactor] at hc <;> cases hc
  · exact hc

/-- The session with a value stored in a register, if one is given. -/
def storing (s : Session) (store : Option String) (v : Value) : Session :=
  match store with
  | some name => { s with registers := s.registers.store name v }
  | none => s

/-! ### Two builders -/

/-- Two registers hold two builders, with the cells of the builders and what keeps permissions and
operations. -/
structure PairAt (s : Session) (on pon : String) (n m : Nat) (permissions operations : Value)
    (b : RequestBuilder) (pb : PermissionBuilder) : Prop where
  request : s.registers.lookup on = some (.object .requestBuilder [n] (b.attrs permissions))
  permission : s.registers.lookup pon = some (.object .permissionBuilder [m] (pb.attrs operations))
  permissions_kept : permissions.IsKept (b.permissions.map fun gs => gs.map Grant.toValue)
  operations_kept : operations.IsKept (pb.operations.map PermissionBuilder.operationValues)
  ne : n ≠ m
  made : n < s.made.moment ∧ m < s.made.moment
  apart : permissions.AreApart operations [[n], [m]] s.made.moment

/-- Two registers hold two builders. -/
def HasPair (s : Session) (on pon : String) (b : RequestBuilder) (pb : PermissionBuilder) : Prop :=
  ∃ n m permissions operations, s.PairAt on pon n m permissions operations b pb

namespace PairAt

variable {n m : Nat} {permissions operations permissions' operations' : Value}
    {b b' : RequestBuilder}
  {pb pb' : PermissionBuilder} {made : Making.State}

theorem keeps (h : s.PairAt on pon n m permissions operations b pb) : b.Keeps [n] permissions := by
  have hkept := h.permissions_kept
  have hapart := h.apart.left
  unfold RequestBuilder.Keeps
  split
  · rename_i hnone
    rw [hnone] at hkept
    exact hkept
  · rename_i gs hsome
    rw [hsome] at hkept
    obtain ⟨c, rfl⟩ := hkept
    refine ⟨c, ?_, rfl⟩
    rintro rfl
    exact (hapart _ rfl).1 (List.mem_cons_self ..)

/-- All objects of the builders were made before. -/
theorem made_before (h : s.PairAt on pon n m permissions operations b pb) {v : Value}
    (hv : v.IsApart [[n], [m]] s.made.moment) :
    ∀ c ∈ [[n], [m]] ++ v.cell?.toList, ∃ k < s.made.moment, c = [k] := by
  intro c hc
  simp only [List.cons_append, List.nil_append, List.mem_cons, Option.mem_toList] at hc
  rcases hc with rfl | rfl | hc
  · exact ⟨n, h.made.1, rfl⟩
  · exact ⟨m, h.made.2, rfl⟩
  · exact (hv c hc).2

/-- The builder for requests is put in place of itself. -/
theorem putRequest (h : s.PairAt on pon n m permissions operations b pb)
    (hle : s.made.moment ≤ made.moment)
    (hkept : permissions'.IsKept (b'.permissions.map fun gs => gs.map Grant.toValue))
    (hapart : permissions'.AreApart operations [[n], [m]] made.moment) :
    PairAt (putBuilder { s with made } .requestBuilder [n] (b'.attrs permissions')) on pon
      n m permissions' operations b' pb := by
  have hother : ∃ v, (putBuilder { s with made } .requestBuilder [n]
      (b'.attrs permissions')).registers.lookup pon = some v ∧
      v = .object .permissionBuilder [m] (pb.attrs operations) := by
    refine lookup_putBuilder_of_replace ⟨_, h.permission, rfl⟩ ?_
    rintro c new v hc rfl
    refine Value.replace_of_within ?_ (pb.within_attrs h.operations_kept)
    -- neither the builder nor its list occurs in the other builder
    rcases hc with rfl | hc
    · rintro (heq | heq)
      · exact h.ne (List.cons.inj heq).1
      · exact (h.apart.2 _ heq).1 (List.mem_cons_self ..)
    · have hcell := cell?_of_mem_attrs hc
      rintro (rfl | heq)
      · exact (hapart.left _ hcell).1 (by simp)
      · exact (hapart.1 _ hcell).1 (by simp [heq])
  obtain ⟨_, hother, rfl⟩ := hother
  have hmoment : (putBuilder { s with made } .requestBuilder [n] (b'.attrs permissions')).made =
      made := by
    rw [putBuilder_eq]
  refine ⟨?_, hother, hkept, h.operations_kept, h.ne, ?_, ?_⟩
  · refine lookup_putBuilder (s := { s with made }) h.request fun a ha hc => ?_
    exact (hapart.left _ (cell?_of_mem_attrs ⟨a, ha, hc⟩)).1 (List.mem_cons_self ..)
  · rw [hmoment]
    exact ⟨Nat.lt_of_lt_of_le h.made.1 hle, Nat.lt_of_lt_of_le h.made.2 hle⟩
  · rw [hmoment]
    exact hapart

/-- The builder for permissions is put in place of itself. What the other one shows stays. -/
theorem putPermission (h : s.PairAt on pon n m permissions operations b pb)
    (hle : s.made.moment ≤ made.moment)
    (hkept : operations'.IsKept (pb'.operations.map PermissionBuilder.operationValues))
    (hapart : permissions.AreApart operations' [[n], [m]] made.moment) :
    ∃ b' permissions', b.SameOutline b' ∧
      PairAt (putBuilder { s with made } .permissionBuilder [m] (pb'.attrs operations')) on pon
        n m permissions' operations' b' pb' := by
  have hother : ∃ v,
      (putBuilder { s with made } .permissionBuilder [m] (pb'.attrs operations')).registers.lookup
      on = some v ∧
        b.Resembles n permissions.cell? v := by
    refine lookup_putBuilder_of_replace
      ⟨_, h.request, b, permissions, rfl, ⟨rfl, rfl, rfl, rfl⟩, h.permissions_kept, rfl⟩ ?_
    rintro c new v hc hv
    refine hv.replace ?_ ?_
    · rcases hc with rfl | hc
      · exact fun heq => h.ne (List.cons.inj heq).1.symm
      · rintro rfl
        exact (hapart.2 _ (cell?_of_mem_permissionAttrs hc)).1 (List.mem_cons_self ..)
    · rcases hc with rfl | hc
      · exact fun heq => (hapart.left _ heq).1 (by simp)
      · exact fun heq => (hapart.1 _ heq).1 (by simp [cell?_of_mem_permissionAttrs hc])
  obtain ⟨_, hother, b', permissions', rfl, hb, hkept', hcell⟩ := hother
  have hmoment : (putBuilder { s with made } .permissionBuilder [m] (pb'.attrs operations')).made =
      made := by
    rw [putBuilder_eq]
  refine ⟨b', permissions', hb, hother, ?_, hkept', hkept, h.ne, ?_, ?_⟩
  · refine lookup_putBuilder (s := { s with made }) h.permission fun a ha hc => ?_
    exact (hapart.2 _ (cell?_of_mem_permissionAttrs ⟨a, ha, hc⟩)).1 (by simp)
  · rw [hmoment]
    exact ⟨Nat.lt_of_lt_of_le h.made.1 hle, Nat.lt_of_lt_of_le h.made.2 hle⟩
  · rw [hmoment]
    refine ⟨fun c hc => hapart.1 c (hcell ▸ hc), hapart.2⟩

/-- Builders in other registers than the one that is filled stay as they are. -/
theorem storing (h : s.PairAt on pon n m permissions operations b pb) {store : Option String}
    (hstore : store ≠ some on ∧ store ≠ some pon) (v : Value) :
    (s.storing store v).PairAt on pon n m permissions operations b pb := by
  cases store with
  | none => exact h
  | some name =>
    have hon : on ≠ name := fun heq => hstore.1 (congrArg some heq.symm)
    have hpon : pon ≠ name := fun heq => hstore.2 (congrArg some heq.symm)
    exact { h with
      request := (lookup_store_of_ne hon v).trans h.request
      permission := (lookup_store_of_ne hpon v).trans h.permission }

end PairAt

/-! ### What is left behind -/

/-- The loggers of the library let debug records through. -/
def LogsDebug (s : Session) : Prop :=
  ∀ logger, RootLog.ofLibrary logger → s.log.levelFor s.recorded logger ≤ LogLevel.debug.rank

/-- They do while their records are kept apart, whatever the levels are. -/
theorem logsDebug_of_recorded {s : Session} (h : s.recorded) : s.LogsDebug := by
  intro logger hlogger
  rw [RootLog.levelFor, h, hlogger]
  exact Int.le_refl _

/-- A debug record of the library. -/
inductive IsTrace : LogRecord → Prop where
  | intro {logger : String} (hlogger : RootLog.ofLibrary logger) (message : String)
      (extras : List (String × Value)) : IsTrace (.trace logger message extras)

/-- What has been left behind when some records were let through. -/
def Progress.leave (p : Progress) (rs : List LogRecord) : Progress :=
  { p with
    records := p.records ++ if p.session.recorded then rs else []
    output := p.output ++ rs.flatMap (p.session.log.write p.session.now) }

theorem run_emit_of_isTrace {p : Progress} {r : LogRecord} (h : p.session.LogsDebug)
    (hr : IsTrace r) : @Eq (Except Fault Bool × Progress) (Run.emit r p)
      (.ok true, p.leave [r]) := by
  obtain ⟨hlogger, message, extras⟩ := hr
  rename_i logger
  have henabled : p.session.log.isEnabled p.session.recorded logger LogLevel.debug.rank :=
    Bool.and_eq_true_iff.2 ⟨rfl, decide_eq_true (h logger hlogger)⟩
  have hmessage : (LogRecord.trace logger message extras).message = .ok (.word (.plain message)) :=
  rfl
  rw [Run.run_emit, hmessage]
  change (if p.session.log.isEnabled p.session.recorded logger LogLevel.debug.rank then _
    else _) = _
  rw [if_pos henabled]
  change (if (p.session.recorded && RootLog.ofLibrary logger) then _ else _) = _
  rw [hlogger, Bool.and_true]
  unfold Progress.leave
  cases p.session.recorded <;> simp

theorem run_emitAll_of_isTrace {p : Progress} {rs : List LogRecord} (h : p.session.LogsDebug)
    (hrs : ∀ r ∈ rs, IsTrace r) :
    @Eq (Except Fault Unit × Progress) ((rs.forM fun r => discard (Run.emit r)) p)
      (.ok (), p.leave rs) := by
  induction rs generalizing p with
  | nil =>
    change (Except.ok (), p) = _
    unfold Progress.leave
    simp
  | cons r rs ih =>
    rw [List.forall_mem_cons] at hrs
    have hfirst : @Eq (Except Fault Unit × Progress) ((discard (Run.emit r)) p)
        (.ok (), p.leave [r]) := by
      change (Run.emit r >>= fun _ => pure ()) p = _
      rw [Run.run_bind, run_emit_of_isTrace h hrs.1]
      rfl
    change (discard (Run.emit r) >>= fun _ => rs.forM fun r => discard (Run.emit r)) p = _
    rw [Run.run_bind, hfirst]
    dsimp only
    rw [ih (p := p.leave [r]) h hrs.2]
    unfold Progress.leave
    cases p.session.recorded <;> simp

end Session

/-! ### Acts -/

/-- How a call ends in a session. -/
def RequestBuilder.Answer.outcome : RequestBuilder.Answer → Except Fault CredentialWrites.Answer
  | .self => .ok .self
  | .built r => .ok (.value r.toValue)
  | .refused f => .error f

/-- How a call ends in a session. -/
def PermissionBuilder.Answer.outcome :
    PermissionBuilder.Answer → Except Fault CredentialWrites.Answer
  | .self => .ok .self
  | .built p => .ok (.value p.toValue)
  | .refused f => .error f

namespace Session

variable {s : Session} {on pon : String}

/-- What a step reports: how it ends, and what is left behind by some records that are let
through. -/
structure Reports (s : Session) (r : Report) (outcome : Except Fault Answer)
    (rs : List LogRecord) : Prop where
  outcome : r.outcome = outcome
  records : r.records = if s.recorded then rs else []
  output : r.output = rs.flatMap (s.log.write s.now)

theorem run_onRequestBuilder {p : Progress} {cell : Cell} {attrs attrs' : List (String × Value)}
    {b b' : RequestBuilder} {act : RequestBuilder.Act} {answer : RequestBuilder.Answer}
    {rs : List LogRecord}
    {t made : Making.State} (hperform : b.perform act p.session.made = (b', answer, rs, t))
    (hstore : (b'.store attrs).Gives t attrs' made) (hdebug : p.session.LogsDebug)
    (hrs : ∀ r ∈ rs, IsTrace r) :
    @Eq (Except Fault Answer × Progress) (Run.onRequestBuilder cell attrs b act p)
      (answer.outcome, Progress.leave
        { p with session := putBuilder { p.session with made } .requestBuilder cell attrs' }
          rs) := by
  have hdebug' : (putBuilder { p.session with made } .requestBuilder cell attrs').LogsDebug := by
    rw [putBuilder_eq]
    exact hdebug
  unfold Making.Gives at hstore
  unfold Run.onRequestBuilder
  rw [Run.run_bind, Run.run_current]
  dsimp only
  rw [hperform]
  dsimp only
  change (Run.make (b'.store attrs) >>= _) { p with session := { p.session with made := t } } = _
  rw [Run.run_bind, Run.run_make, hstore]
  dsimp only
  change ((rs.forM fun r => discard (Run.emit r)) >>= _)
    { p with session := putBuilder { p.session with made } .requestBuilder cell attrs' } = _
  rw [Run.run_bind, run_emitAll_of_isTrace hdebug' hrs]
  cases answer <;> rfl

theorem run_onPermissionBuilder {p : Progress} {cell : Cell} {attrs attrs' : List (String × Value)}
    {b b' : PermissionBuilder} {act : PermissionBuilder.Act} {answer : PermissionBuilder.Answer}
    {rs : List LogRecord} {made : Making.State} (hperform : b.perform act = (b', answer, rs))
    (hstore : (b'.store attrs).Gives p.session.made attrs' made) (hdebug : p.session.LogsDebug)
    (hrs : ∀ r ∈ rs, IsTrace r) :
    @Eq (Except Fault Answer × Progress) (Run.onPermissionBuilder cell attrs b act p)
      (answer.outcome, Progress.leave
        { p with session := putBuilder { p.session with made } .permissionBuilder cell attrs' }
          rs) := by
  have hdebug' : (putBuilder { p.session with made } .permissionBuilder cell attrs').LogsDebug := by
    rw [putBuilder_eq]
    exact hdebug
  unfold Making.Gives at hstore
  unfold Run.onPermissionBuilder
  rw [hperform]
  dsimp only
  rw [Run.run_bind, Run.run_make, hstore]
  dsimp only
  change ((rs.forM fun r => discard (Run.emit r)) >>= _)
    { p with session := putBuilder { p.session with made } .permissionBuilder cell attrs' } = _
  rw [Run.run_bind, run_emitAll_of_isTrace hdebug' hrs]
  cases answer <;> rfl

/-- What is left of a call when the method is done: nothing but a value that may be stored. -/
theorem run_finish {q : Progress} {a : Answer} {w : Value} (store : Option String)
    (hread : q.session.registers.lookup on = some w) (ha : a = .self ∨ ∃ v, a = .value v) :
    ∃ v, @Eq (Except Fault Answer × Progress) (finish on store a q)
      (.ok a, { q with session := q.session.storing store v }) := by
  rcases ha with rfl | ⟨v, rfl⟩
  · refine ⟨w, ?_⟩
    change (Run.read on >>= fun w => Run.store store w >>= fun _ => (pure .self : Run Answer)) q = _
    rw [Run.run_bind, run_read hread]
    cases store <;> rfl
  · refine ⟨v, ?_⟩
    cases store <;> rfl

/-- A step that is an act on a builder: the session after it, and what it reports. -/
theorem step_of_method {t : ScriptStep} {m : Run Answer} {store : Option String}
    {outcome : Except Fault Answer} {s' : Session} {rs : List LogRecord} {w : Value}
    (hquiet : t.quiet = false)
    (hrun : @Eq (Except Fault Answer × Progress) (act t.action ⟨s, [], []⟩)
      ((m >>= finish on store) ⟨s, [], []⟩))
    (hm : @Eq (Except Fault Answer × Progress) (m ⟨s, [], []⟩)
      (outcome, Progress.leave ⟨s', [], []⟩ rs))
    (hlogs : LogsAlike s' s) (hread : s'.registers.lookup on = some w)
    (houtcome : ∀ a, outcome = .ok a → a = .self ∨ ∃ v, a = .value v) :
    ((s.step t).1 = s' ∨ ∃ v, (s.step t).1 = s'.storing store v) ∧
      s.Reports (s.step t).2 outcome rs := by
  have hleave : Progress.leave ⟨s', [], []⟩ rs =
      ⟨s', if s.recorded then rs else [], rs.flatMap (s.log.write s.now)⟩ := by
    simp [Progress.leave, hlogs.recorded, hlogs.log, hlogs.now]
  rw [Run.run_bind, hm, hleave] at hrun
  cases outcome with
  | error f =>
    rw [step_eq hrun, hquiet]
    exact ⟨.inl rfl, rfl, rfl, rfl⟩
  | ok a =>
    obtain ⟨v, hv⟩ := run_finish (q := ⟨s', if s.recorded then rs else [],
      rs.flatMap (s.log.write s.now)⟩) store hread (houtcome a rfl)
    rw [step_eq (hrun.trans hv), hquiet]
    exact ⟨.inr ⟨v, rfl⟩, rfl, rfl, rfl⟩

/-- An act on the builder for requests leaves it as the act does, and the other one as it is. -/
theorem step_actStep {b b' : RequestBuilder} {pb : PermissionBuilder} {act : RequestBuilder.Act}
    {store : Option String} {answer : RequestBuilder.Answer} {rs : List LogRecord}
    {t : Making.State}
    (h : s.HasPair on pon b pb) (hdebug : s.LogsDebug) (hstore : store ≠ some on ∧ store ≠ some pon)
    (hperform : b.perform act s.made = (b', answer, rs, t)) (hrs : ∀ r ∈ rs, IsTrace r) :
    (s.step (actStep on act store false)).1.HasPair on pon b' pb ∧
      s.Reports (s.step (actStep on act store false)).2 answer.outcome rs := by
  obtain ⟨n, m, permissions, operations, h⟩ := h
  have hle : s.made.moment ≤ t.moment := by
    simpa only [hperform] using RequestBuilder.moment_le_perform b act s.made
  have hothers : ∀ c ∈ [[n], [m]] ++ operations.cell?.toList, ∃ k < t.moment, c = [k] := fun c hc =>
    (h.made_before h.apart.2 c hc).imp fun _ hk => ⟨Nat.lt_of_lt_of_le hk.1 hle, hk.2⟩
  obtain ⟨permissions', made, hlist, hkept, hapart, hle'⟩ :=
    Value.gives_storeList (b'.permissions.map fun gs => gs.map Grant.toValue) h.permissions_kept
      (h.apart.1.later hle) hothers
  have hattrs : (b'.store (b.attrs permissions)).Gives t (b'.attrs permissions') made :=
    RequestBuilder.gives_store_of_list rfl hlist
  have hpair := h.putRequest (Nat.le_trans hle hle') hkept ⟨hapart,
    h.apart.2.later (Nat.le_trans hle hle')⟩
  have hlogs : LogsAlike (putBuilder { s with made } .requestBuilder [n]
    (b'.attrs permissions')) s := by
    rw [putBuilder_eq]
    exact ⟨rfl, rfl, rfl⟩
  obtain ⟨hnext, hreports⟩ := step_of_method (t := actStep on act store false) rfl
    (run_actStep act store false h.request h.keeps)
    (run_onRequestBuilder hperform hattrs hdebug hrs) hlogs hpair.request fun a ha => by
      cases answer with
      | self => exact .inl (Except.ok.inj ha).symm
      | built r => exact .inr ⟨_, (Except.ok.inj ha).symm⟩
      | refused f => cases ha
  refine ⟨?_, hreports⟩
  obtain hnext | ⟨v, hnext⟩ := hnext
  · rw [hnext]
    exact ⟨n, m, _, _, hpair⟩
  · rw [hnext]
    exact ⟨n, m, _, _, hpair.storing hstore v⟩

/-- An act on the builder for permissions leaves it as the act does. What the other one shows
stays. -/
theorem step_permissionStep {b : RequestBuilder} {pb pb' : PermissionBuilder}
    {act : PermissionBuilder.Act} {store : Option String} {answer : PermissionBuilder.Answer}
    {rs : List LogRecord}
    (h : s.HasPair on pon b pb) (hdebug : s.LogsDebug) (hstore : store ≠ some on ∧ store ≠ some pon)
    (hperform : pb.perform act = (pb', answer, rs)) (hrs : ∀ r ∈ rs, IsTrace r) :
    (∃ b', b.SameOutline b' ∧ (s.step (permissionStep pon act store)).1.HasPair on pon b' pb') ∧
      s.Reports (s.step (permissionStep pon act store)).2 answer.outcome rs := by
  obtain ⟨n, m, permissions, operations, h⟩ := h
  obtain ⟨operations', made, hlist, hkept, hapart, hle⟩ :=
    Value.gives_storeList (pb'.operations.map PermissionBuilder.operationValues) h.operations_kept
      h.apart.symm.1 (h.made_before h.apart.left)
  have hattrs : (pb'.store (pb.attrs operations)).Gives s.made (pb'.attrs operations') made :=
    gives_bind.2 ⟨operations', made, hlist, gives_pure.2 ⟨rfl, rfl⟩⟩
  have happart : operations'.AreApart permissions [[n], [m]] made.moment :=
    ⟨hapart, h.apart.left.later hle⟩
  obtain ⟨b', permissions', hb, hpair⟩ := h.putPermission hle hkept happart.symm
  have hlogs : LogsAlike (putBuilder { s with made } .permissionBuilder [m]
    (pb'.attrs operations')) s := by
    rw [putBuilder_eq]
    exact ⟨rfl, rfl, rfl⟩
  obtain ⟨hnext, hreports⟩ := step_of_method (t := permissionStep pon act store) rfl
    (run_permissionStep act store h.permission h.operations_kept)
    (run_onPermissionBuilder hperform hattrs hdebug hrs) hlogs hpair.permission fun a ha => by
      cases answer with
      | self => exact .inl (Except.ok.inj ha).symm
      | built p => exact .inr ⟨_, (Except.ok.inj ha).symm⟩
      | refused f => cases ha
  refine ⟨⟨b', hb, ?_⟩, hreports⟩
  obtain hnext | ⟨v, hnext⟩ := hnext
  · rw [hnext]
    exact ⟨n, m, _, _, hpair⟩
  · rw [hnext]
    exact ⟨n, m, _, _, hpair.storing hstore v⟩

/-- The session with two new builders. -/
def withPair (s : Session) (on pon : String) : Session :=
  s.after [newBuilder on false, newPermissionBuilder pon]

theorem act_newPermissionBuilder (s : Session) (on : String) :
    (act (newPermissionBuilder on).action) ⟨s, [], []⟩ =
      (.ok (.value (.object .permissionBuilder [s.made.moment]
        (PermissionBuilder.start.attrs .null))), ⟨{ s with
          made := { s.made with moment := s.made.moment + 1 }
          registers := s.registers.store on
            (.object .permissionBuilder [s.made.moment] (PermissionBuilder.start.attrs .null)) },
            [], []⟩) :=
  rfl

/-- New builders have nothing yet. -/
theorem hasPair_withPair (s : Session) (hne : on ≠ pon) :
    (s.withPair on pon).HasPair on pon .start .start ∧ LogsAlike (s.withPair on pon) s := by
  rw [withPair, after, List.foldl_cons, List.foldl_cons, List.foldl_nil,
    (step_of_act (act_newBuilder s on false)).1, (step_of_act (act_newPermissionBuilder _ pon)).1]
  have hmoment : s.made.moment ≠ s.made.moment + 1 := Nat.ne_of_lt (Nat.lt_succ_self _)
  refine ⟨⟨s.made.moment, s.made.moment + 1, .null, .null, ?_, lookup_store_self _,
    rfl, rfl, hmoment,
    ⟨Nat.lt_succ_of_lt (Nat.lt_succ_self _), Nat.lt_succ_self _⟩, Value.isApart_null _ _,
    Value.isApart_null _ _⟩,
    rfl, rfl, rfl⟩
  exact (lookup_store_of_ne hne _).trans (lookup_store_self _)

end Session

end CredentialWrites
