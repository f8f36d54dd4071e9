import CredentialWrites.Proofs.Request.InSession
import CredentialWrites.Proofs.Script.Agree

/-!
# Secrets leave no trace

What the calls on a builder show does not depend on the secrets that the builder is given. Two
builders that differ in their values only, but not in the type of these, are refused the same
arguments for the same reasons, and leave the same records.

* `RequestBuilder.SameOutline` : two builders differ in nothing that is shown.
* `RequestBuilder.SameButSecret` : two acts differ in nothing but a secret.
* `RequestBuilder.agree_run_of_sameButSecret` : two sessions whose acts differ in secrets only.
-/

namespace CredentialWrites

namespace Grant

/-- A permission with other identities for its objects. -/
def relabel (f : Cell → Cell) (g : Grant) : Grant :=
  ⟨g.actor.relabel f, g.operations.relabel f⟩

theorem ofValue_relabel (f : Cell → Cell) (v : Value) :
    ofValue (v.relabel f) = relabel f <$> ofValue v := by
  cases v with
  | record kind fields =>
    rcases fields with _ | ⟨actor, _ | ⟨operations, _ | _⟩⟩ <;> cases kind <;> rfl
  | _ => rfl

theorem mapM_ofValue_relabelAll (f : Cell → Cell) (vs : List Value) :
    (Value.relabelAll f vs).mapM ofValue = List.map (relabel f) <$> vs.mapM ofValue := by
  induction vs with
  | nil => rfl
  | cons v vs ih =>
    rw [Value.relabelAll, List.mapM_cons, List.mapM_cons, ih, ofValue_relabel]
    cases ofValue v with
    | error e => rfl
    | ok g => cases vs.mapM ofValue <;> rfl

end Grant

namespace RequestBuilder

open Making

variable {b b' : RequestBuilder} {s s' : State} {f : Cell → Cell} {I : State → State → Prop}

/-- Two builders differ in nothing that is shown: their values may, but not the types of these, and
their permissions may, but not the number of these. -/
structure SameOutline (b b' : RequestBuilder) : Prop where
  name : b.name = b'.name
  overwrite : b.overwrite = b'.overwrite
  type : b.value.map CredentialValue.type = b'.value.map CredentialValue.type
  count : (b.permissions.getD []).length = (b'.permissions.getD []).length

theorem SameOutline.trace_eq (h : SameOutline b b') : b.build.trace = b'.build.trace := by
  have htype : (b.value.map fun v => Value.text v.type.token) =
      b'.value.map fun v => Value.text v.type.token := by
    simpa [Function.comp_def] using congrArg
      (Option.map fun t : ValueType => Value.text t.token) h.type
  simp only [Request.trace, build, h.name, h.count, htype]

/-- A value of the same type takes the place of the one before with the same record. -/
theorem SameOutline.setValue {v v' : CredentialValue} (h : SameOutline b b')
    (hv : v.type = v'.type) : SameOutline (b.setValue v).1 (b'.setValue v').1 ∧
    (b.setValue v).2 = (b'.setValue v').2 := by
  refine ⟨⟨h.name, h.overwrite, congrArg some hv, h.count⟩, ?_⟩
  have hrecord (old old' : CredentialValue) (hold : old.type = old'.type) :
      Request.traceReplacement b.name old v = Request.traceReplacement b'.name old' v' := by
    simp only [Request.traceReplacement, hold, hv, h.name]
  have htype := h.type
  unfold RequestBuilder.setValue
  cases hb : b.value <;> cases hb' : b'.value <;> rw [hb, hb'] at htype
  · rfl
  · cases htype
  · cases htype
  · exact congrArg (fun r => [r]) (hrecord _ _ (Option.some.inj htype))

theorem SameOutline.addGrants {gs gs' : List Grant} (h : SameOutline b b')
    (hgs : gs.length = gs'.length) : SameOutline (b.addGrants gs) (b'.addGrants gs') := by
  have hcount : (b.permissions.getD [] ++ gs).length = (b'.permissions.getD [] ++ gs').length := by
    simp only [List.length_append, h.count, hgs]
  exact ⟨h.name, h.overwrite, h.type, hcount⟩

/-- An act is given a secret. -/
def Act.isSecret : Act → Bool
  | .call (.passwordValue _) => true
  | .call (.jsonValue _) => true
  | _ => false

/-- Two acts differ in nothing but a secret that they are given. What else they are given is the
same but for the identities of its objects. -/
inductive SameButSecret (f : Cell → Cell) : Act → Act → Prop where
  | passwordValue (v v' : Value) :
      SameButSecret f (.call (.passwordValue v)) (.call (.passwordValue v'))
  | jsonValue (v v' : Value) : SameButSecret f (.call (.jsonValue v)) (.call (.jsonValue v'))
  | name (v : Value) : SameButSecret f (.call (.name v)) (.call (.name (v.relabel f)))
  | overwrite (v : Value) : SameButSecret f (.call (.overwrite v))
      (.call (.overwrite (v.relabel f)))
  | additionalPermission (v : Value) :
    SameButSecret f (.call (.additionalPermission v)) (.call (.additionalPermission (v.relabel f)))
  | additionalPermissions (v : Value) :
    SameButSecret f (.call (.additionalPermissions v))
    (.call (.additionalPermissions (v.relabel f)))
  | build : SameButSecret f .build .build

theorem SameButSecret.isSecret_eq {act act' : Act} (h : SameButSecret f act act') :
    act.isSecret = act'.isSecret := by
  cases h <;> rfl

theorem nameOf_relabel (v : Value) : nameOf (v.relabel f) = nameOf v := by
  cases v with
  | record kind fields =>
    rcases fields with _ | ⟨w, _ | _⟩ <;> cases kind <;> first
      | rfl
      | simp only [Value.relabel, Value.relabelAll, nameOf, Value.word?_relabel,
          Value.kindName_relabel]
  | _ => rfl

theorem overwriteOf_relabel (v : Value) : overwriteOf (v.relabel f) = overwriteOf v := by
  cases v <;> rfl

theorem present_relabel (field : String) (v : Value) :
    Argument.present field (v.relabel f) = Value.relabel f <$> Argument.present field v := by
  cases v <;> rfl

/-- The same check has the same result in two states. -/
theorem agree_lift_self {α : Type} {e : Except Fault α} (hI : I s s') :
    (liftM e : Making α).Agree (liftM e) s s' I Eq :=
  agree_lift hI (fun a ha => ⟨a, ha, rfl⟩) fun _ h => h

theorem agree_grantsOf (h : Follows f I) (v : Value) (hI : I s s') :
    (grantsOf v).Agree (grantsOf (v.relabel f)) s s' I fun gs gs' => gs.length = gs'.length := by
  unfold grantsOf
  rw [present_relabel]
  refine (agree_lift_map (Q := fun v v' => v' = v.relabel f) hI fun _ _ => rfl).bind ?_
  rintro v _ t t' hI' rfl
  refine (Value.agree_takeItems h hI').bind ?_
  rintro vs _ u u' hI'' rfl
  rw [Grant.mapM_ofValue_relabelAll]
  exact agree_lift_map hI'' fun gs _ => (List.length_map _).symm

/-- Calls that are given no secret are accepted alike, or refused with the same fault. -/
theorem agree_set {c c' : Call} (h : Follows f I) (hb : SameOutline b b')
    (hc : SameButSecret f (.call c) (.call c')) (hsecret : ¬ (Act.call c).isSecret) (hI : I s s') :
    (b.set c).Agree (b'.set c') s s' I fun r r' => SameOutline r.1 r'.1 ∧ r.2 = r'.2 := by
  cases hc with
  | passwordValue v v' => exact absurd rfl hsecret
  | jsonValue v v' => exact absurd rfl hsecret
  | name v =>
    simp only [set]
    rw [nameOf_relabel]
    refine (agree_lift_self hI).bind ?_
    rintro n _ t t' hI' rfl
    exact agree_pure hI' ⟨⟨rfl, hb.overwrite, hb.type, hb.count⟩, rfl⟩
  | overwrite v =>
    simp only [set]
    rw [overwriteOf_relabel]
    refine (agree_lift_self hI).bind ?_
    rintro o _ t t' hI' rfl
    exact agree_pure hI' ⟨⟨hb.name, rfl, hb.type, hb.count⟩, rfl⟩
  | additionalPermission v =>
    simp only [set]
    rw [Grant.ofValue_relabel]
    refine (agree_lift_map (Q := fun _ _ => True) hI fun _ _ => trivial).bind fun g g' t t' hI' _ =>
      ?_
    exact agree_pure hI' ⟨hb.addGrants rfl, rfl⟩
  | additionalPermissions v =>
    simp only [set]
    refine (agree_grantsOf h v hI).bind fun gs gs' t t' hI' hgs => ?_
    exact agree_pure hI' ⟨hb.addGrants hgs, rfl⟩

/-- What was taken from streams corresponds, cell by cell. -/
def TakenAlike (f : Cell → Cell) (s s' : State) : Prop :=
  ∀ c, s'.takenFrom (f c) = s.takenFrom c

theorem TakenAlike.of_taken {t t' : State} (h : TakenAlike f s s') (ht : t.taken = s.taken)
    (ht' : t'.taken = s'.taken) : TakenAlike f t t' := by
  intro c
  have hc := h c
  unfold State.takenFrom at hc ⊢
  rw [ht, ht', hc]

/-- Secrets that are accepted become values of one type. -/
theorem sameOutline_of_isSecret {c c' : Call} {r r' : RequestBuilder × List LogRecord}
    {t t' : State} (hb : SameOutline b b') (hc : SameButSecret f (.call c) (.call c'))
    (hsecret : (Act.call c).isSecret) (h : (b.set c).Gives s r t)
    (h' : (b'.set c').Gives s' r' t') :
    (SameOutline r.1 r'.1 ∧ r.2 = r'.2) ∧ t.taken = s.taken ∧ t'.taken = s'.taken := by
  cases hc with
  | passwordValue v v' =>
    obtain ⟨w, u, hw, h⟩ := gives_bind.1 h
    obtain ⟨w', u', hw', h'⟩ := gives_bind.1 h'
    obtain ⟨-, rfl⟩ := gives_lift.1 hw
    obtain ⟨-, rfl⟩ := gives_lift.1 hw'
    obtain ⟨rfl, rfl⟩ := gives_pure.1 h
    obtain ⟨rfl, rfl⟩ := gives_pure.1 h'
    exact ⟨hb.setValue rfl, rfl, rfl⟩
  | jsonValue v v' =>
    have hjson (b₀ : RequestBuilder) (v₀ : Value) (s₀ t₀ : State)
        (r₀ : RequestBuilder × List LogRecord) (h₀ : (b₀.set (.jsonValue v₀)).Gives s₀ r₀ t₀) :
        ∃ es, b₀.setValue (.json es) = r₀ ∧ t₀.taken = s₀.taken := by
      obtain ⟨es₀, u, hes₀, h₀⟩ := gives_bind.1 h₀
      obtain ⟨-, rfl⟩ := gives_lift.1 hes₀
      obtain ⟨value, u', hvalue, h₀⟩ := gives_bind.1 h₀
      obtain ⟨es, u'', hes, hvalue⟩ := gives_bind.1 hvalue
      obtain ⟨rfl, rfl⟩ := gives_pure.1 hvalue
      obtain ⟨rfl, rfl⟩ := gives_pure.1 h₀
      exact ⟨es, rfl, Value.taken_of_gives_freezeEntries hes⟩
    obtain ⟨es, rfl, ht⟩ := hjson b v s t r h
    obtain ⟨es', rfl, ht'⟩ := hjson b' v' s' t' r' h'
    exact ⟨hb.setValue rfl, ht, ht'⟩
  | name v | overwrite v | additionalPermission v | additionalPermissions v => cases hsecret

/-- Two answers are of one kind, and if they are refusals, for one reason. -/
inductive Answer.Alike : Answer → Answer → Prop where
  | self : Alike .self .self
  | built (r r' : Request) : Alike (.built r) (.built r')
  | refused (f : Fault) : Alike (.refused f) (.refused f)

/-- An act is not refused. -/
def Accepts (b : RequestBuilder) (act : Act) (s : State) : Prop :=
  ∀ g, (b.perform act s).2.1 ≠ .refused g

theorem perform_of_gives {c : Call} {r : RequestBuilder × List LogRecord} {t : State}
    (h : (b.set c).Gives s r t) : b.perform (.call c) s = (r.1, .self, r.2, t) := by
  unfold Gives at h
  simp only [perform, h]

theorem perform_of_fails {c : Call} {g : Fault} {t : State} (h : (b.set c).Fails s g t) :
    b.perform (.call c) s = (b, .refused g, [], t) := by
  unfold Fails at h
  simp only [perform, h]

theorem gives_of_accepts {c : Call} (h : b.Accepts (.call c) s) : ∃ r t, (b.set c).Gives s r t := by
  rcases gives_or_fails (b.set c) s with hgives | ⟨g, t, hfails⟩
  · exact hgives
  · exact absurd (by rw [perform_of_fails hfails]) (h g)

/-- Acts that differ in nothing but an accepted secret are answered alike, leave the same records
and keep builders alike. -/
theorem perform_alike {act act' : Act} (hf : Function.Injective f) (hb : SameOutline b b')
    (hact : SameButSecret f act act') (htaken : TakenAlike f s s')
    (haccepted : act.isSecret → b.Accepts act s ∧ b'.Accepts act' s') :
    ∃ b₁ b₁' answer answer' records t t', b.perform act s = (b₁, answer, records, t) ∧
      b'.perform act' s' = (b₁', answer', records, t') ∧ SameOutline b₁ b₁' ∧ answer.Alike answer' ∧
      TakenAlike f t t' := by
  cases act with
  | build =>
    cases hact
    refine ⟨b, b', _, _, [b.build.trace], s, s', rfl, ?_, hb, .built b.build b'.build, htaken⟩
    rw [hb.trace_eq]
    rfl
  | call c =>
    obtain ⟨c', rfl⟩ : ∃ c', act' = .call c' := by
      cases hact <;> exact ⟨_, rfl⟩
    by_cases hsecret : (Act.call c).isSecret
    · obtain ⟨r, t, h⟩ := gives_of_accepts (haccepted hsecret).1
      obtain ⟨r', t', h'⟩ := gives_of_accepts (haccepted hsecret).2
      obtain ⟨⟨hout, hrecords⟩, ht, ht'⟩ := sameOutline_of_isSecret hb hact hsecret h h'
      refine ⟨r.1, r'.1, _, _, r.2, t, t', perform_of_gives h, ?_, hout, .self,
        htaken.of_taken ht ht'⟩
      rw [hrecords]
      exact perform_of_gives h'
    · have hagree := agree_set (follows_takenFrom hf) hb hact hsecret htaken
      obtain ⟨r, t, r', t', h, h', ht, hout, hrecords⟩ | ⟨g, t, t', h, h', ht⟩ := agree_iff.1 hagree
      · refine ⟨r.1, r'.1, _, _, r.2, t, t', perform_of_gives h, ?_, hout, .self, ht⟩
        rw [hrecords]
        exact perform_of_gives h'
      · exact ⟨b, b', _, _, [], t, t', perform_of_fails h, perform_of_fails h', hb, .refused g, ht⟩

end RequestBuilder

namespace Session

open Run RequestBuilder

variable {f : Cell → Cell} {on : String} {p p' : Progress}

/-- Two sessions hold builders that differ in nothing that is shown, and show things alike. -/
structure Twins (f : Cell → Cell) (on : String) (s s' : Session) : Prop where
  logs : LogsAlike s s'
  taken : TakenAlike f s.made s'.made
  builders : ∃ b b', s.HasBuilder on b ∧ s'.HasBuilder on b' ∧ b.SameOutline b'

/-- Two answers are of one kind. -/
inductive AnswersAlike : CredentialWrites.Answer → CredentialWrites.Answer → Prop where
  | self : AnswersAlike .self .self
  | value (v v' : Value) : AnswersAlike (.value v) (.value v')

/-- Builders that differ in nothing that is shown are put in the places of builders. -/
theorem twins_putBuilder {s s' : Session} {n n' : Nat} {b b' : RequestBuilder}
    {attrs attrs' : List (String × Value)} {permissions permissions' : Value}
    (hlogs : LogsAlike s s')
    (htaken : TakenAlike f s.made s'.made)
    (hread : s.registers.lookup on = some (.object .requestBuilder [n] attrs))
    (hread' : s'.registers.lookup on = some (.object .requestBuilder [n'] attrs'))
    (hkeeps : b.Keeps [n] permissions) (hkeeps' : b'.Keeps [n'] permissions')
    (hn : n < s.made.moment)
    (hn' : n' < s'.made.moment) (hb : b.SameOutline b') :
    Twins f on (s.putBuilder .requestBuilder [n] (b.attrs permissions))
      (s'.putBuilder .requestBuilder [n'] (b'.attrs permissions')) where
  logs := by
    rw [putBuilder_eq s, putBuilder_eq s']
    exact ⟨hlogs.log, hlogs.now, hlogs.recorded⟩
  taken := by
    rw [putBuilder_eq s, putBuilder_eq s']
    exact htaken
  builders := ⟨b, b', hasBuilder_putBuilder hread hkeeps hn,
    hasBuilder_putBuilder hread' hkeeps' hn', hb⟩

/-- Acts that differ in nothing but an accepted secret end alike and leave the same behind. -/
theorem agree_onRequestBuilder {n n' : Nat} {b b' : RequestBuilder}
    {permissions permissions' : Value} {act act' : Act} (hf : Function.Injective f)
    (hp : SameTrace p p')
    (hlogs : LogsAlike p.session p'.session) (htaken : TakenAlike f p.session.made p'.session.made)
    (hread : p.session.registers.lookup on =
      some (.object .requestBuilder [n] (b.attrs permissions)))
    (hread' : p'.session.registers.lookup on =
      some (.object .requestBuilder [n'] (b'.attrs permissions')))
    (hkeeps : b.Keeps [n] permissions) (hkeeps' : b'.Keeps [n'] permissions')
    (hn : n < p.session.made.moment) (hn' : n' < p'.session.made.moment)
    (hb : b.SameOutline b') (hact : SameButSecret f act act')
    (haccepted : act.isSecret → b.Accepts act p.session.made ∧ b'.Accepts act' p'.session.made) :
    (onRequestBuilder [n] (b.attrs permissions) b act).Agree
      (onRequestBuilder [n'] (b'.attrs permissions') b' act') p p' (Twins f on)
      fun s s' a a' => Twins f on s s' ∧ AnswersAlike a a' := by
  obtain ⟨b₁, b₁', answer, answer', records, t, t', hperform, hperform', hb₁, hanswer, ht⟩ :=
    perform_alike hf hb hact htaken haccepted
  have hle : p.session.made.moment ≤ t.moment := by
    simpa only [hperform] using moment_le_perform b act p.session.made
  have hle' : p'.session.made.moment ≤ t'.moment := by
    simpa only [hperform'] using moment_le_perform b' act' p'.session.made
  obtain ⟨permissions₁, u, hstore, hkeeps₁, hu, hutaken⟩ :=
    gives_store (c := b₁) hkeeps (Nat.lt_of_lt_of_le hn hle)
  obtain ⟨permissions₁', u', hstore', hkeeps₁', hu', hutaken'⟩ :=
    gives_store (c := b₁') hkeeps' (Nat.lt_of_lt_of_le hn' hle')
  refine (agree_current hp).bind fun s s' q q' hq hs => ?_
  obtain ⟨hqs, hqs', rfl, rfl⟩ := hs
  rw [hqs, hqs', hperform, hperform']
  dsimp only
  refine (agree_update hq).bind fun _ _ q₁ q₁' hq₁ hs₁ => ?_
  have hmade : q₁.session.made = t := by rw [hs₁.1]
  have hmade' : q₁'.session.made = t' := by rw [hs₁.2]
  rw [← hmade] at hstore
  rw [← hmade'] at hstore'
  refine (agree_make hq₁ hstore hstore').bind fun _ _ q₂ q₂' hq₂ hs₂ => ?_
  obtain ⟨hs₂, hs₂', rfl, rfl⟩ := hs₂
  refine (agree_update hq₂).bind fun _ _ q₃ q₃' hq₃ hs₃ => ?_
  -- from here on nothing changes the sessions, which hold the builders after the act
  have htwins : Twins f on q₃.session q₃'.session := by
    rw [hs₃.1, hs₃.2, hs₂, hs₂', hs₁.1, hs₁.2, hqs, hqs']
    exact twins_putBuilder ⟨hlogs.log, hlogs.now, hlogs.recorded⟩
      (ht.of_taken hutaken hutaken') hread hread' hkeeps₁ hkeeps₁'
      (Nat.lt_of_lt_of_le hn (Nat.le_trans hle hu))
      (Nat.lt_of_lt_of_le hn' (Nat.le_trans hle' hu')) hb₁
  refine (agree_emitAll hq₃ htwins.logs htwins).bind fun _ _ q₄ q₄' hq₄ hs₄ => ?_
  rw [← hs₄.1, ← hs₄.2] at htwins
  cases hanswer with
  | self => exact agree_pure hq₄ ⟨htwins, .self⟩
  | built r r' => exact agree_pure hq₄ ⟨htwins, .value _ _⟩
  | refused g => exact agree_throw hq₄ htwins

/-- Builders in other registers than the ones that are filled stay as they are. -/
theorem Twins.store {s s' : Session} (h : Twins f on s s') {name : String} (hne : on ≠ name)
    (v v' : Value) : Twins f on { s with registers := s.registers.store name v }
      { s' with registers := s'.registers.store name v' } := by
  obtain ⟨b, b', ⟨n, permissions, hread, hkeeps, hn⟩,
      ⟨n', permissions', hread', hkeeps', hn'⟩, hb⟩ :=
    h.builders
  refine ⟨⟨h.logs.log, h.logs.now, h.logs.recorded⟩, h.taken, b, b',
    ⟨n, permissions, ?_, hkeeps, hn⟩, ⟨n', permissions', ?_, hkeeps', hn'⟩, hb⟩
  · exact (lookup_store_of_ne hne v).trans hread
  · exact (lookup_store_of_ne hne v').trans hread'

/-- What the call answers is stored, but not in the place of the builder. -/
theorem agree_store {store : Option String} (hp : SameTrace p p')
    (h : Twins f on p.session p'.session) (hne : store ≠ some on) (v v' : Value) :
    (Run.store store v).Agree (Run.store store v') p p' (Twins f on) fun s s' _ _ =>
      Twins f on s s' := by
  cases store with
  | none => exact agree_pure hp h
  | some name =>
    have hname : on ≠ name := by
      rintro rfl
      exact hne rfl
    refine ⟨hp, ?_⟩
    exact h.store hname v v'

theorem agree_finish {store : Option String} {a a' : CredentialWrites.Answer} (hp : SameTrace p p')
    (h : Twins f on p.session p'.session) (hne : store ≠ some on) (ha : AnswersAlike a a') :
    (finish on store a).Agree (finish on store a') p p' (Twins f on)
      fun s s' _ _ => Twins f on s s' := by
  cases ha with
  | self =>
    obtain ⟨b, b', ⟨n, permissions, hread, -⟩, ⟨n', permissions', hread', -⟩, -⟩ := h.builders
    have hreads : (Run.read on).Agree (Run.read on) p p' (Twins f on)
        fun s s' _ _ => s = p.session ∧ s' = p'.session := by
      unfold Run.Agree
      rw [run_read hread, run_read hread']
      exact ⟨hp, rfl, rfl⟩
    refine hreads.bind fun v v' q q' hq hs => ?_
    rw [← hs.1, ← hs.2] at h
    exact (agree_store hq h hne v v').bind fun _ _ r r' hr hs => agree_pure hr hs
  | value v v' => exact (agree_store hp h hne v v').bind fun _ _ q q' hq hs => agree_pure hq hs

/-- A call that is reported as a success was accepted by the builder. -/
theorem accepts_of_outcome {s : Session} {b : RequestBuilder} {act : Act} {store : Option String}
    {quiet : Bool} {a : CredentialWrites.Answer} (h : s.HasBuilder on b)
    (hok : (s.step (actStep on act store quiet)).2.outcome = .ok a) : b.Accepts act s.made := by
  intro g hg
  obtain ⟨n, permissions, hread, hkeeps, hn⟩ := h
  have hrefused : (onRequestBuilder [n] (b.attrs permissions) b act).Keeps ⟨s, [],
    []⟩ (fun _ => True)
      fun _ _ => False := by
    refine (keeps_current trivial).bind fun s' q _ hs => ?_
    obtain rfl : s' = s := hs.2
    dsimp only
    rcases hperform : b.perform act s'.made with ⟨b₁, answer, records, t⟩
    rw [hperform] at hg
    obtain rfl : answer = .refused g := hg
    dsimp only
    refine (keeps_update trivial).bind fun _ q₁ _ _ => ?_
    refine (keeps_make (Q := fun _ _ => True) (fun _ _ => trivial) fun _ _ _ => trivial).bind
      fun attrs q₂ _ _ => ?_
    refine (keeps_update trivial).bind fun _ q₃ _ _ => ?_
    exact (keeps_emitAll trivial).bind fun _ q₄ _ _ => keeps_throw trivial
  have hkeeps' : (Session.act (actStep on act store quiet).action).Keeps ⟨s, [], []⟩ (fun _ => True)
      fun _ _ => False := by
    have hcall : (onRequestBuilder [n] (b.attrs permissions) b act >>= finish on store).Keeps
        ⟨s, [], []⟩ (fun _ => True) fun _ _ => False :=
      hrefused.bind fun _ _ _ h => h.elim
    exact hcall.of_run_eq (run_actStep act store quiet hread hkeeps)
  obtain ⟨e, he⟩ := outcome_of_keeps hkeeps'
  rw [hok] at he
  cases he

/-- A call on a builder, with where its result is stored. -/
structure BuilderCall where
  act : Act
  store : Option String
  quiet : Bool

/-- The step that a call is. -/
def BuilderCall.step (on : String) (c : BuilderCall) : ScriptStep :=
  actStep on c.act c.store c.quiet

/-- Calls that differ in nothing but an accepted secret are reported alike, and leave builders
alike. -/
theorem step_alike {s s' : Session} {c c' : BuilderCall} (hf : Function.Injective f)
    (h : Twins f on s s') (hact : SameButSecret f c.act c'.act) (hsame : c.store = c'.store)
    (hne : c.store ≠ some on)
    (hok : c.act.isSecret → ∃ a, (s.step (c.step on)).2.outcome = .ok a)
    (hok' : c'.act.isSecret → ∃ a, (s'.step (c'.step on)).2.outcome = .ok a) :
    Twins f on (s.step (c.step on)).1 (s'.step (c'.step on)).1 ∧
      SameReport (s.step (c.step on)).2 (s'.step (c'.step on)).2 := by
  obtain ⟨act, store, quiet⟩ := c
  obtain ⟨act', store', quiet'⟩ := c'
  obtain rfl : store = store' := hsame
  obtain ⟨b, b', hb, hb', hbuilders⟩ := h.builders
  have haccepted : act.isSecret → b.Accepts act s.made ∧ b'.Accepts act' s'.made := by
    intro hsecret
    obtain ⟨a, ha⟩ := hok hsecret
    obtain ⟨a', ha'⟩ := hok' (hact.isSecret_eq ▸ hsecret)
    exact ⟨accepts_of_outcome hb ha, accepts_of_outcome hb' ha'⟩
  obtain ⟨n, permissions, hread, hkeeps, hn⟩ := hb
  obtain ⟨n', permissions', hread', hkeeps', hn'⟩ := hb'
  have hstart : SameTrace ⟨s, [], []⟩ ⟨s', [], []⟩ := ⟨rfl, rfl⟩
  have hcall :=
    (agree_onRequestBuilder hf hstart h.logs h.taken hread hread' hkeeps hkeeps' hn hn' hbuilders
      hact haccepted).bind fun a a' q q' hq ha => agree_finish hq ha.1 hne ha.2
  refine step_of_agree (hcall.of_run_eq ?_ ?_) fun _ _ _ _ h => h
  · exact run_actStep act store quiet hread hkeeps
  · exact run_actStep act' store quiet' hread' hkeeps'

/-- New builders are alike. -/
theorem newBuilder_alike {s s' : Session} {quiet quiet' : Bool} (hlogs : LogsAlike s s')
    (htaken : TakenAlike f s.made s'.made) :
    Twins f on (s.step (newBuilder on quiet)).1 (s'.step (newBuilder on quiet')).1 ∧
      SameReport (s.step (newBuilder on quiet)).2 (s'.step (newBuilder on quiet')).2 := by
  refine step_of_agree (Q := fun s s' _ _ => Twins f on s s') ?_ fun _ _ _ _ h => h
  unfold Run.Agree
  rw [act_newBuilder, act_newBuilder]
  refine ⟨⟨rfl, rfl⟩, ⟨hlogs.log, hlogs.now, hlogs.recorded⟩, htaken, .start, .start, ?_, ?_,
    rfl, rfl, rfl, rfl⟩
  · exact ⟨s.made.moment, .null, lookup_store_self _, rfl, Nat.lt_succ_self _⟩
  · exact ⟨s'.made.moment, .null, lookup_store_self _, rfl, Nat.lt_succ_self _⟩

/-- All calls of a run that are given secrets succeed. -/
def SecretsAccepted (calls : List BuilderCall) (run : List (Session × Report)) : Prop :=
  List.Forall₂ (fun c x => c.act.isSecret → ∃ a, x.2.outcome = .ok a) calls run

/-- Runs of calls that differ in nothing but accepted secrets are reported alike. -/
theorem run_alike {s s' : Session} {calls calls' : List BuilderCall} (hf : Function.Injective f)
    (h : Twins f on s s')
    (hcalls : List.Forall₂ (fun c c' => SameButSecret f c.act c'.act ∧
      c.store = c'.store) calls calls')
    (hstore : ∀ c ∈ calls, c.store ≠ some on)
    (hok : SecretsAccepted calls (s.run (calls.map (BuilderCall.step on))))
    (hok' : SecretsAccepted calls' (s'.run (calls'.map (BuilderCall.step on)))) :
    List.Forall₂ (fun x x' => SameReport x.2 x'.2) (s.run (calls.map (BuilderCall.step on)))
      (s'.run (calls'.map (BuilderCall.step on))) := by
  induction hcalls generalizing s s' with
  | nil => exact .nil
  | @cons c c' calls calls' hcall hcalls ih =>
    obtain ⟨hact, hsame⟩ := hcall
    obtain _ | ⟨hfirst, hrest⟩ := hok
    obtain _ | ⟨hfirst', hrest'⟩ := hok'
    rw [List.forall_mem_cons] at hstore
    obtain ⟨hnext, hreport⟩ := step_alike hf h hact hsame hstore.1 hfirst hfirst'
    exact .cons hreport (ih hnext hstore.2 hrest hrest')

/-- **Secrets leave no trace.** Let two sessions log alike, whatever the log is like, and let each
make a new builder and take the same calls on it, which may fail, build or replace a value, in any
order. If the calls differ in nothing but what is given as a password or as a document, and none of
that is refused, then each call succeeds in both sessions or fails in both with the same fault, it
leaves the same records of the library, and the handler of the log writes the same. What else the
calls are given may be other objects in the other session, if no two become one and as much of a
stream was taken as of its counterpart. -/
theorem secrets_leave_no_trace {s s' : Session} {quiet quiet' : Bool}
    {calls calls' : List BuilderCall} (hf : Function.Injective f) (hlogs : LogsAlike s s')
    (htaken : TakenAlike f s.made s'.made)
    (hcalls : List.Forall₂ (fun c c' => SameButSecret f c.act c'.act ∧
      c.store = c'.store) calls calls')
    (hstore : ∀ c ∈ calls, c.store ≠ some on)
    (hok : SecretsAccepted calls ((s.step (newBuilder on quiet)).1.run
      (calls.map (BuilderCall.step on))))
    (hok' : SecretsAccepted calls'
      ((s'.step (newBuilder on quiet')).1.run (calls'.map (BuilderCall.step on)))) :
    List.Forall₂ (fun x x' => SameReport x.2 x'.2)
      (s.run (newBuilder on quiet :: calls.map (BuilderCall.step on)))
      (s'.run (newBuilder on quiet' :: calls'.map (BuilderCall.step on))) := by
  obtain ⟨hnew, hreport⟩ := newBuilder_alike hlogs htaken
  exact .cons hreport (run_alike hf hnew hcalls hstore hok hok')

/-- A session with a log that writes all records for people and masks nothing. -/
def loggingSession : Session :=
  { Session.start ⟨[], none⟩ ⟨2024, 1, 2, 3, 4, 5, 0⟩ true with log :=
    ⟨.rank 10, [], [.lines (.console [])]⟩ }

/-- Calls with two secrets, between them a name and a refused argument, and a build at the end. -/
def secretCalls (password document : Value) : List BuilderCall :=
  [⟨.call (.passwordValue password), none, false⟩, ⟨.call (.name (.text "/a")), none, false⟩,
    ⟨.call (.overwrite (.list [0] [])), none, false⟩, ⟨.call (.jsonValue document), none, true⟩,
    ⟨.build, some "r", false⟩]

/-- A password and a document leave the same behind as others do. -/
theorem secrets_leave_no_trace_of_secretCalls :
    List.Forall₂ (fun x x' => SameReport x.2 x'.2)
      (loggingSession.run (newBuilder "b" false ::
        (secretCalls (.text "abc") (.map [1] [(.text "k", .int 1)])).map (BuilderCall.step "b")))
      (loggingSession.run (newBuilder "b" false ::
        (secretCalls (.text "xy") (.map [1] [(.null, .list [2] [.buffer [3] [0], .null])])).map
          (BuilderCall.step "b"))) := by
  have hlogs : LogsAlike loggingSession loggingSession := ⟨rfl, rfl, rfl⟩
  have htaken : TakenAlike id loggingSession.made loggingSession.made := fun _ => rfl
  have hok (r : Except Fault CredentialWrites.Answer) (h : r.toOption.isSome) : ∃ a, r = .ok a := by
    cases r with
    | error e => cases h
    | ok a => exact ⟨a, rfl⟩
  refine secrets_leave_no_trace Function.injective_id hlogs htaken ?_ ?_ ?_ ?_
  · exact .cons ⟨.passwordValue _ _, rfl⟩ (.cons ⟨.name _, rfl⟩ (.cons ⟨.overwrite _, rfl⟩
      (.cons ⟨.jsonValue _ _, rfl⟩ (.cons ⟨.build, rfl⟩ .nil))))
  · simp [secretCalls]
  · exact .cons (fun _ => hok _ (by decide +kernel)) (.cons nofun (.cons nofun
      (.cons (fun _ => hok _ (by decide +kernel)) (.cons nofun .nil))))
  · exact .cons (fun _ => hok _ (by decide +kernel)) (.cons nofun (.cons nofun
      (.cons (fun _ => hok _ (by decide +kernel)) (.cons nofun .nil))))

end Session

end CredentialWrites
