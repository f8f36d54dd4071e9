import CredentialWrites.Proofs.Request.Region
import CredentialWrites.Proofs.Script.Uses

/-!
# Builders apart from everything else

In a session that sets registers aside for builders and for what they build, the others hold common
objects only. A call on a builder sets more objects apart: the document that it is given is a new
one, of which no one else holds an object, and so is the list of its permissions. A division of the
objects is left in place by every change to an object that fits into it.

* `Session.Apart` : the registers hold what they are for.
* `Session.Placed.layout` : the common registers are those that others may read and write.
* `Session.keeps_onRequestBuilder` : an act on a builder.
* `Session.keeps_callWith_onBuilder` : a call on a builder.
-/

namespace CredentialWrites

open Making Value

/-- Where the answer of a method of a builder belongs. -/
def Role.ofMethod (method : String) : Role :=
  if method = "build" then .built
  else if (objectMethods .requestBuilder).contains method then .builder
  else .common

namespace Session

variable {role : String → Role} {kept : String → Option Value} {d : Division} {s : Session}
    {p : Progress}
  {a : Function.Arguments}

/-- What a register holds at a moment: what it is for, and what is to be kept in it. -/
def Contains (d : Division) (role : String → Role) (kept : String → Option Value) (x : String)
    (n : Nat) (v : Value) : Prop :=
  d.Places n (role x) v ∧ ∀ w, kept x = some w → v = w

/-- The registers hold what they are for under a division of the objects, and keep values that are
set apart. -/
structure Placed (d : Division) (role : String → Role) (kept : String → Option Value)
    (s : Session) : Prop where
  before : d.MadeBefore s.made.moment
  content : ∀ x v, s.registers.lookup x = some v → Contains d role kept x s.made.moment v
  filled : ∀ x, (kept x).isSome → (s.registers.lookup x).isSome
  kept : ∀ x w, kept x = some w → w.Within d.InDocument

/-- The registers hold what they are for under some division. -/
def Apart (role : String → Role) (kept : String → Option Value) (s : Session) : Prop :=
  ∃ d, Placed d role kept s

/-! ### Changes of the session -/

theorem Placed.grow {d' : Division} {made : Making.State} (h : Placed d role kept s)
    (hgrows : d.Grows s.made.moment d' made.moment) (hbefore : d'.MadeBefore made.moment) :
    Placed d' role kept { s with made } where
  before := hbefore
  content := fun x v hv => ⟨(h.content x v hv).1.grow hgrows, (h.content x v hv).2⟩
  filled := h.filled
  kept := fun x w hw => (h.kept x w hw).mono fun _ => hgrows.document

theorem Placed.store {x : String} {v : Value} (h : Placed d role kept s)
    (hv : d.Places s.made.moment (role x) v) (hx : kept x = none) :
    Placed d role kept { s with registers := s.registers.store x v } where
  before := h.before
  content := fun y w hw => by
    by_cases hy : y = x
    · subst hy
      rw [lookup_store_self] at hw
      cases hw
      exact ⟨hv, by simp [hx]⟩
    · rw [lookup_store_of_ne hy] at hw
      exact h.content y w hw
  filled := fun y hy => by
    have hne : y ≠ x := by
      rintro rfl
      simp [hx] at hy
    rw [lookup_store_of_ne hne]
    exact h.filled y hy
  kept := h.kept

/-- An object is replaced by one that belongs where it did. -/
theorem Placed.replace {c : Cell} {new : Value} (h : Placed d role kept s)
    (hfits : d.Fits s.made.moment c new) : Placed d role kept (s.replace c new) where
  before := h.before
  content := fun x v hv => by
    rw [lookup_replace] at hv
    obtain ⟨w, hw, rfl⟩ := Option.map_eq_some_iff.1 hv
    obtain ⟨hplaces, hkept⟩ := h.content x w hw
    refine ⟨hfits.places_replace hplaces, fun u hu => ?_⟩
    obtain rfl := hkept u hu
    exact replace_of_within hfits.not_document (h.kept x w hu)
  filled := fun x hx => by
    rw [lookup_replace, Option.isSome_map]
    exact h.filled x hx
  kept := h.kept

theorem put_of_cell?_eq_none {new : Value} (h : new.cell? = none) : s.put new = s := by
  unfold put
  rw [h]

/-- The list of a builder is put in the place of the one that it was. -/
theorem Placed.putGrants {o : Option (List Grant)} {permissions : Value} (h : Placed d role kept s)
    (hpermissions : d.Keeps s.made.moment o permissions) :
    Placed d role kept (s.put permissions) := by
  cases hpermissions with
  | none => exact h
  | some hcell hgs => exact h.replace (.grants hcell hgs)

/-- A builder is put in the place of the one that it was. -/
theorem Placed.putBuilder {m : Nat} {b : RequestBuilder} {permissions : Value}
    (h : Placed d role kept s) (hcell : d [m] = .builder) (hvalue : d.Guards s.made.moment b.value)
    (hpermissions : d.Keeps s.made.moment b.permissions permissions) :
    Placed d role kept (s.putBuilder .requestBuilder [m] (b.attrs permissions)) := by
  have hname : ((b.name.map CredentialName.toValue).getD .null).cell? = none := by
    cases b.name <;> rfl
  have hcontent : ((b.value.map CredentialValue.toValue).getD .null).cell? = none := by
    rcases b.value with _ | _ | _ <;> rfl
  have hoverwrite : (Value.bool b.overwrite).cell? = none := rfl
  -- only the list and the builder itself are objects
  have heq : s.putBuilder .requestBuilder [m] (b.attrs permissions) =
      (s.put permissions).replace [m] (.object .requestBuilder [m] (b.attrs permissions)) := by
    simp only [Session.putBuilder, RequestBuilder.attrs, List.map_cons, List.map_nil,
      List.foldl_cons, List.foldl_nil, put_of_cell?_eq_none hname, put_of_cell?_eq_none hoverwrite,
      put_of_cell?_eq_none hcontent]
    rfl
  have hmade : (s.put permissions).made = s.made := by rw [put_eq]
  rw [heq]
  refine (h.putGrants hpermissions).replace (.builder hcell ?_)
  rw [hmade]
  exact .intro hcell hvalue hpermissions

/-! ### The layout of the registers -/

theorem Placed.layout (h : Placed d role kept s) :
    Layout d.Common s.made.moment (fun x => role x = .common)
      (fun x => role x = .common ∧ kept x = none) (Contains d role kept) where
  scope := h.before.scope
  later := fun hle hv => ⟨hv.1.grow (Division.grows_later hle), hv.2⟩
  replace := fun {x n c new v} hc hnew hv => by
    have hfits : d.Fits n c new := .common hc hnew
    refine ⟨hfits.places_replace hv.1, fun w hw => ?_⟩
    obtain rfl := hv.2 w hw
    exact replace_of_within hfits.not_document (h.kept x v hw)
  within := fun hx hv => by
    have hplaces := hv.1
    rwa [hx] at hplaces
  holds := fun hx hv => by
    refine ⟨?_, by simp [hx.2]⟩
    rwa [hx.1]

theorem Placed.holds (h : Placed d role kept s) :
    Holds (Contains d role kept) (fun x => (kept x).isSome) s.made.moment s where
  start_le := Nat.le_refl _
  content := h.content
  filled := h.filled

/-- What is in the registers later on is placed under the same division. -/
theorem Placed.of_holds {s' : Session} (h : Placed d role kept s)
    (h' : Holds (Contains d role kept) (fun x => (kept x).isSome) s.made.moment s') :
    Placed d role kept s' where
  before := ⟨h.before.shared, fun hne => Nat.lt_of_lt_of_le (h.before.made hne) h'.start_le⟩
  content := h'.content
  filled := h'.filled
  kept := h.kept

theorem Placed.apart_of_holds (h : Placed d role kept s) (s' : Session)
    (h' : Holds (Contains d role kept) (fun x => (kept x).isSome) s.made.moment s') :
    Apart role kept s' :=
  ⟨d, h.of_holds h'⟩

/-! ### Calls on a builder -/

/-- A builder is stored under a division in which its list is set apart, if it has one. -/
theorem gives_store_of_keeps {b b' : RequestBuilder} {permissions : Value} {t : Making.State}
    (hbefore : d.MadeBefore t.moment) (h : d.Keeps t.moment b.permissions permissions)
    (hgs : ∀ gs, b'.permissions = some gs → d.Allows t.moment gs) :
    ∃ permissions' t' d', (b'.store (b.attrs permissions)).Gives t (b'.attrs permissions') t' ∧
      d.Grows t.moment d' t'.moment ∧ d'.MadeBefore t'.moment ∧
      d'.Keeps t'.moment b'.permissions permissions' := by
  cases hb' : b'.permissions with
  | none =>
    exact ⟨.null, t, d, RequestBuilder.gives_store_of_list hb' rfl,
      Division.grows_later (Nat.le_refl _), hbefore, .none⟩
  | some gs =>
    have hallows := hgs gs hb'
    generalize b.permissions = o at h
    cases h with
    | none =>
      -- the list is made now, and it is set apart
      have hgrows := hbefore.grows_withObject .grants
      refine ⟨.list [t.moment] (gs.map Grant.toValue), { t with moment := t.moment + 1 },
        d.withObject t.moment .grants, RequestBuilder.gives_store_of_list hb' rfl, hgrows,
        hbefore.withObject .grants, ?_⟩
      exact .some (d.withObject_self _ _) (hallows.grow hgrows)
    | @some old c hcell _ =>
      exact ⟨.list c (gs.map Grant.toValue), t, d, RequestBuilder.gives_store_of_list hb' rfl,
        Division.grows_later (Nat.le_refl _), hbefore, .some hcell hallows⟩

/-- The answer of an act is the builder itself, or it is the request that was built. -/
def AnswersAct (act : RequestBuilder.Act) (d : Division) (s : Session) : Answer → Prop
  | .self => act ≠ .build
  | .value v => act = .build ∧ d.Built s.made.moment v
  | _ => False

/-- An act gives to a builder what is common, or what is new and set apart. -/
theorem guards_of_gains {b b' : RequestBuilder} {n n' : Nat} (hbefore : d.MadeBefore n)
    (h : RequestBuilder.Gains (d.Common n) n n' b b') (hvalue : d.Guards n b.value)
    (hgs : ∀ gs, b.permissions = some gs → d.Allows n gs) :
    (d.withDocument n n').Guards n' b'.value ∧
      ∀ gs, b'.permissions = some gs → (d.withDocument n n').Allows n' gs := by
  have hgrows := hbefore.grows_withDocument h.le
  refine ⟨fun es hes => ?_, fun gs hgs' g hg => ?_⟩
  · rcases h.value es hes with hold | ⟨hown, hkeys⟩
    · exact hvalue.grow hgrows es hold
    · exact ⟨hown.mono fun _ => Division.inDocument_withDocument, hkeys.mono hgrows.common⟩
  · rcases h.permissions gs hgs' g hg with ⟨old, hold, hg⟩ | hnew
    · exact (hgs old hold).grow hgrows g hg
    · exact hnew.mono hgrows.common

theorem allows_of_keeps {n : Nat} {o : Option (List Grant)} {permissions : Value}
    (h : d.Keeps n o permissions) : ∀ gs, o = some gs → d.Allows n gs := by
  rintro gs rfl
  cases h
  assumption

/-- What a builder is to be stored as is set apart together with it. -/
theorem keeps_makeStore {b b' : RequestBuilder} {permissions : Value}
    (h : Placed d role kept p.session)
    (hpermissions : d.Keeps p.session.made.moment b.permissions permissions)
    (hgs : ∀ gs, b'.permissions = some gs → d.Allows p.session.made.moment gs) :
    (Run.make (b'.store (b.attrs permissions))).Keeps p (Apart role kept) fun s attrs =>
      ∃ d' permissions', Placed d' role kept s ∧ d.Grows p.session.made.moment d' s.made.moment ∧
        d'.Keeps s.made.moment b'.permissions permissions' ∧ attrs = b'.attrs permissions' := by
  obtain ⟨permissions', made, d', hstore, hgrows, hbefore, hkeeps⟩ :=
    gives_store_of_keeps h.before hpermissions hgs
  have hplaced : Placed d' role kept { p.session with made } := h.grow hgrows hbefore
  unfold Gives at hstore
  refine Run.keeps_make (fun t ht => ⟨d', ?_⟩) fun attrs t hattrs => ?_
  · rw [hstore] at ht
    rwa [ht]
  · unfold Gives at hattrs
    rw [hstore] at hattrs
    cases hattrs
    exact ⟨d', permissions', hplaced, hgrows, hkeeps, rfl⟩

/-- A builder builds what is made of what it holds. -/
theorem built_build {b : RequestBuilder} {n : Nat} (hvalue : d.Guards n b.value)
    (hgs : ∀ gs, b.permissions = some gs → d.Allows n gs) : d.Built n b.build.toValue := by
  refine .request hvalue ?_
  cases hb : b.permissions with
  | none => simp [RequestBuilder.build, hb, Division.Allows]
  | some gs => simpa [RequestBuilder.build, hb] using hgs gs hb

/-- An act on a builder with arguments that offer only what is common. -/
theorem keeps_onRequestBuilder {m : Nat} {b : RequestBuilder} {permissions : Value}
    {act : RequestBuilder.Act} (h : Placed d role kept p.session) (hcell : d [m] = .builder)
    (hvalue : d.Guards p.session.made.moment b.value)
    (hpermissions : d.Keeps p.session.made.moment b.permissions permissions)
    (hact : ∀ v ∈ act.args, RequestBuilder.Offers (d.Common p.session.made.moment) v) :
    (Run.onRequestBuilder [m] (b.attrs permissions) b act).Keeps p (Apart role kept)
      fun s answer => ∃ d, Placed d role kept s ∧ AnswersAct act d s answer := by
  unfold Run.onRequestBuilder
  refine (Run.keeps_current (I := (· = p.session)) rfl |>.imp fun _ hs => ⟨d, hs ▸ h⟩).bind
    fun s q _ hq => ?_
  obtain ⟨hq, -, rfl⟩ := hq
  rcases hperform : b.perform act p.session.made with ⟨b', answer, records, made⟩
  have hgains := RequestBuilder.gains_perform hact hperform
  obtain ⟨hvalue', hgs'⟩ := guards_of_gains h.before hgains hvalue (allows_of_keeps hpermissions)
  have hgrows := h.before.grows_withDocument hgains.le
  have hbefore := h.before.withDocument hgains.le
  -- first the document that the act gave to the builder is set apart
  generalize d.withDocument p.session.made.moment made.moment = d₁ at hvalue' hgs' hgrows hbefore
  have hplaced : Placed d₁ role kept { q.session with made } := by
    rw [hq]
    exact h.grow hgrows hbefore
  dsimp only
  refine (Run.keeps_update ⟨d₁, hplaced⟩).bind fun _ r _ hr => ?_
  have hmade : r.session.made = made := by rw [hr]
  rw [← hr] at hplaced
  rw [← hmade] at hvalue' hgs' hgrows
  -- then the list, if it is a new one
  refine (keeps_makeStore hplaced (hpermissions.grow hgrows) hgs').bind fun attrs t _ ht => ?_
  obtain ⟨d₂, permissions', hplaced₂, hgrows₂, hkeeps, rfl⟩ := ht
  have hcell₂ : d₂ [m] = .builder := hgrows₂.region (hgrows.region hcell (by decide)) (by decide)
  have hput := hplaced₂.putBuilder hcell₂ (hvalue'.grow hgrows₂) hkeeps
  refine (Run.keeps_update ⟨d₂, hput⟩).bind fun _ u _ hu => ?_
  have hmoment : u.session.made = t.session.made := by rw [hu, putBuilder_eq]
  rw [← hu] at hput
  refine (Run.keeps_emitAll (I := Apart role kept) ⟨d₂, hput⟩).bind fun _ w _ hw => ?_
  rw [← hw] at hput hmoment
  cases answer with
  | self =>
    refine Run.keeps_pure ⟨d₂, hput⟩ ⟨d₂, hput, ?_⟩
    rintro rfl
    cases hperform
  | built request =>
    obtain ⟨hbuild, rfl, rfl, -⟩ := RequestBuilder.eq_of_built hperform
    refine Run.keeps_pure ⟨d₂, hput⟩ ⟨d₂, hput, hbuild, ?_⟩
    rw [hmoment]
    exact built_build (hvalue'.grow hgrows₂) fun gs hgs => (hgs' gs hgs).grow hgrows₂
  | refused f => exact Run.keeps_throw ⟨d₂, hput⟩

/-- What a method of a builder answers belongs where its answers do. -/
def AnswersMethod (method : String) (d : Division) (s : Session) : Answer → Prop
  | .self => Role.ofMethod method = .builder
  | .value v => d.Places s.made.moment (.ofMethod method) v
  | _ => False

theorem answersMethod_of_requestAct? {method : String} {a : Function.Arguments}
    {act : RequestBuilder.Act} {answer : Answer} (hact : requestAct? method a = some act)
    (h : AnswersAct act d s answer) :
    AnswersMethod method d s answer := by
  unfold requestAct? at hact
  split at hact <;> cases hact
  all_goals
    cases answer with
    | self => first | exact rfl | exact absurd rfl h
    | value v => first | exact h.2 | cases h.1
    | _ => exact h.elim

theorem ofMethod_of_requestAct?_eq_none {method : String} {a : Function.Arguments}
    (hact : requestAct? method a = none) : Role.ofMethod method = .common := by
  unfold requestAct? at hact
  split at hact <;> try cases hact
  simp_all [Role.ofMethod, objectMethods]

theorem lookup_of_requestAct? {method : String} {a : Function.Arguments} {act : RequestBuilder.Act}
    (hact : requestAct? method a = some act) (b : RequestBuilder) (permissions : Value) :
    (b.attrs permissions).lookup method = none := by
  unfold requestAct? at hact
  split at hact <;> first | rfl | cases hact

/-- What is left of a session when something common was made in it. -/
theorem Placed.keeps_common {m : Run Value} (h : Placed d role kept p.session)
    (hm : m.Keeps p (Holds (Contains d role kept) (fun x => (kept x).isSome) p.session.made.moment)
      fun s v => v.Within (d.Common s.made.moment)) :
    m.Keeps p (Apart role kept) fun s v => Placed d role kept s ∧
      v.Within (d.Common s.made.moment) :=
  (hm.imp h.apart_of_holds).mono fun _ _ _ hv => ⟨h.of_holds hv.1, hv.2⟩

/-- The arguments of a method of a builder offer it only what has cells of a kind. -/
structure OffersTo (P : Cell → Prop) (method : String) (a : Function.Arguments) : Prop where
  act : ∀ act, requestAct? method a = some act → ∀ v ∈ act.args, RequestBuilder.Offers P v
  other : requestAct? method a = none → a.Within P

theorem OffersTo.of_within {P : Cell → Prop} {method : String} (ha : a.Within P) :
    OffersTo P method a where
  act := fun _ hact => Layout.offers_requestArgs ha hact
  other := fun _ => ha

/-- A method of a builder with arguments that offer only what is common. -/
theorem keeps_builderMethod {v : Value} {method : String} {a : Function.Arguments}
    (h : Placed d role kept p.session) (hv : d.Building p.session.made.moment v)
    (ha : OffersTo (d.Common p.session.made.moment) method a) :
    (Session.method v method a).Keeps p (Apart role kept)
      fun s answer => ∃ d, Placed d role kept s ∧ AnswersMethod method d s answer := by
  obtain ⟨hcell, hvalue, hpermissions⟩ := hv
  rename_i m b permissions
  cases hact : requestAct? method a with
  | some act =>
    have hkeeps : b.Keeps [m] permissions := by
      unfold RequestBuilder.Keeps
      generalize b.permissions = o at hpermissions
      cases hpermissions with
      | none => rfl
      | @some gs c hgrants _ =>
        refine ⟨c, ?_, rfl⟩
        rintro rfl
        exact absurd (hgrants.symm.trans hcell) (by decide)
    have hmethod : Session.method (.object .requestBuilder [m] (b.attrs permissions)) method a =
        Run.onRequestBuilder [m] (b.attrs permissions) b act := by
      simp only [Session.method, lookup_of_requestAct? hact, hact,
        RequestBuilder.ofAttrs?_attrs hkeeps]
    rw [hmethod]
    refine (keeps_onRequestBuilder h hcell hvalue hpermissions (ha.act act hact)).mono
      fun s answer _ hanswer => ?_
    obtain ⟨d', hplaced, hanswer⟩ := hanswer
    exact ⟨d', hplaced, answersMethod_of_requestAct? hact hanswer⟩
  | none =>
    have hmethod : Session.method (.object .requestBuilder [m] (b.attrs permissions)) method a =
        Answer.value <$> valueMethod (.object .requestBuilder [m] (b.attrs permissions)) method
        a := by
      rw [Session.method, hact]
      split
      · contradiction
      · rfl
    rw [hmethod]
    have hvalue := h.keeps_common
      (m := valueMethod (.object .requestBuilder [m] (b.attrs permissions)) method a)
      (h.layout.keeps_valueMethod h.holds trivial (ha.other hact))
    refine hvalue.map fun s w _ hw => ⟨d, hw.1, ?_⟩
    change d.Places s.made.moment (.ofMethod method) w
    rw [ofMethod_of_requestAct?_eq_none hact]
    exact hw.2

/-- A value is stored in a register for what it is, which is the last thing that is done. -/
theorem Placed.keeps_store {store : Option String} {v : Value} {r : Role} {α : Type} {a : α}
    (h : Placed d role kept p.session) (hv : d.Places p.session.made.moment r v)
    (hstore : ∀ x, store = some x → role x = r ∧ kept x = none) :
    (Run.store store v >>= fun _ => pure a).Keeps p (Apart role kept) fun _ _ => True := by
  have hput : (Run.store store v).Keeps p (Apart role kept) fun _ _ => True := by
    cases store with
    | none => exact Run.keeps_pure ⟨d, h⟩ trivial
    | some x =>
      obtain ⟨rfl, hkept⟩ := hstore x rfl
      have hupdate : (Run.update fun s => { s with registers := s.registers.store x v }).Keeps p
          (Apart role kept) fun s _ => s =
          { p.session with registers := p.session.registers.store x v } :=
        Run.keeps_update ⟨d, h.store hv hkept⟩
      exact hupdate.mono fun _ _ _ _ => trivial
  exact hput.bind fun _ q hq _ => Run.keeps_pure hq trivial

variable {store : Option String}

/-- A register is read. -/
theorem Placed.keeps_read {x : String} (h : Placed d role kept p.session) :
    (Run.read x).Keeps p (Apart role kept) fun s v => s = p.session ∧
      d.Places s.made.moment (role x) v :=
  (Run.keeps_read (I := Apart role kept) ⟨d, h⟩).mono fun s v _ hv => by
    obtain ⟨rfl, hv⟩ := hv
    exact ⟨rfl, (h.content x v hv).1⟩

theorem keeps_callWith_newBuilder {x : String} (h : Placed d role kept p.session)
    (hx : role x = .builder) (hkept : kept x = none) :
    (Layout.callWith "WriteRequest.builder" none (some x) a).Keeps p (Apart role kept) fun _ _ =>
      True := by
  have hnew : (Run.make (Function.call "WriteRequest.builder" a)).Keeps p
      (Apart role kept) fun s v =>
      ∃ d', Placed d' role kept s ∧ d'.Building s.made.moment v := by
    have hgrows := h.before.grows_withObject .builder
    have hbefore := h.before.withObject .builder
    have hplaced : Placed (d.withObject p.session.made.moment .builder) role kept
        { p.session with
          made := { p.session.made with moment := p.session.made.moment + 1 } } :=
            h.grow hgrows hbefore
    generalize hd : d.withObject p.session.made.moment .builder = d' at hplaced
    refine Run.keeps_make (fun made hmade => ⟨d', ?_⟩) fun v made hv => ?_
    · rw [hmade]
      exact hplaced
    · cases hv
      refine ⟨d', hplaced, .intro (b := .start) ?_ (by rintro _ ⟨⟩) .none⟩
      rw [← hd, Division.withObject_self]
  refine hnew.bind fun v q _ hq => ?_
  obtain ⟨d', hplaced, hv⟩ := hq
  refine hplaced.keeps_store (r := .builder) hv ?_
  rintro y ⟨⟩
  exact ⟨hx, hkept⟩

theorem keeps_callWith_onBuilder {method x : String} (h : Placed d role kept p.session)
    (hx : role x = .builder) (ha : OffersTo (d.Common p.session.made.moment) method a)
    (hstore : ∀ y, store = some y → role y = .ofMethod method ∧ kept y = none) :
    (Layout.callWith method (some x) store a).Keeps p (Apart role kept) fun _ _ => True := by
  refine h.keeps_read.bind fun v q _ hq => ?_
  obtain ⟨hq, hv⟩ := hq
  rw [hx] at hv
  rw [← hq] at h ha
  refine (keeps_builderMethod h hv ha).bind fun answer r hr hanswer => ?_
  obtain ⟨d', hplaced, hanswer⟩ := hanswer
  cases answer with
  | self =>
    refine hplaced.keeps_read.bind fun w t _ ht => ?_
    obtain ⟨ht, hw⟩ := ht
    rw [← ht] at hplaced
    have hbuilder : Role.ofMethod method = .builder := hanswer
    rw [hx, ← hbuilder] at hw
    exact hplaced.keeps_store hw hstore
  | value w => exact hplaced.keeps_store hanswer hstore
  | _ => exact hanswer.elim

end Session

end CredentialWrites
