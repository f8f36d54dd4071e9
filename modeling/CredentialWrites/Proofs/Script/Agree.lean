import CredentialWrites.Proofs.Script.Keeps
import CredentialWrites.Proofs.Value.Renaming

/-!
# Steps of two sessions side by side

Two sessions that take corresponding steps are compared by what the steps show: how they end, the
records of the library and what the handler of the log writes. What a record leaves behind depends
on the log, the clock and the record alone.

* `Session.Run.Agree` : two computations show the same and leave sessions that correspond.
* `Session.Run.agree_emitAll` : the same records leave the same behind in sessions with the same
  log.
-/

namespace CredentialWrites

namespace Session

/-- Two sessions log alike: their logs, clocks and recordings are the same. -/
structure LogsAlike (s s' : Session) : Prop where
  log : s.log = s'.log
  now : s.now = s'.now
  recorded : s.recorded = s'.recorded

namespace Run

/-- What two steps have left behind so far is the same. -/
def SameTrace (p p' : Progress) : Prop :=
  p.records = p'.records ∧ p.output = p'.output

variable {α α' β β' : Type} {m : Run α} {m' : Run α'} {p p' : Progress}
  {I : Session → Session → Prop} {Q : Session → Session → α → α' → Prop}
  {R : Session → Session → β → β' → Prop}

/-- Two computations of steps agree: they leave the same behind, and either give values that
correspond or fail with one fault. The sessions correspond to the values, or to the failure. -/
def Agree (m : Run α) (m' : Run α') (p p' : Progress) (I : Session → Session → Prop)
    (Q : Session → Session → α → α' → Prop) : Prop :=
  match (m p : Except Fault α × Progress), (m' p' : Except Fault α' × Progress) with
  | (.ok a, q), (.ok b, q') => SameTrace q q' ∧ Q q.session q'.session a b
  | (.error e, q), (.error e', q') => SameTrace q q' ∧ I q.session q'.session ∧ e = e'
  | _, _ => False

theorem Agree.of_run_eq {n : Run α} {n' : Run α'} (h : m.Agree m' p p' I Q)
    (heq : @Eq (Except Fault α × Progress) (n p) (m p))
    (heq' : @Eq (Except Fault α' × Progress) (n' p') (m' p')) : n.Agree n' p p' I Q := by
  unfold Agree at h ⊢
  rwa [heq, heq']

theorem Agree.mono {Q' : Session → Session → α → α' → Prop} (h : m.Agree m' p p' I Q)
    (hQ : ∀ s s' a b, Q s s' a b → Q' s s' a b) : m.Agree m' p p' I Q' := by
  unfold Agree at h ⊢
  split at h
  · exact ⟨h.1, hQ _ _ _ _ h.2⟩
  · exact h
  · exact h.elim

theorem Agree.bind {f : α → Run β} {f' : α' → Run β'} (h : m.Agree m' p p' I Q)
    (hf : ∀ a b q q', SameTrace q q' → Q q.session q'.session a b → (f a).Agree (f' b) q q' I R) :
    (m >>= f).Agree (m' >>= f') p p' I R := by
  unfold Agree at h ⊢
  rw [run_bind, run_bind]
  rcases hm : (m p : Except Fault α × Progress) with ⟨e | a, q⟩ <;>
    rcases hm' : (m' p' : Except Fault α' × Progress) with ⟨e' | b, q'⟩ <;> rw [hm, hm'] at h
  · exact h
  · exact h.elim
  · exact h.elim
  · exact hf a b q q' h.1 h.2

theorem agree_pure {a : α} {b : α'} (hp : SameTrace p p') (hQ : Q p.session p'.session a b) :
    (pure a : Run α).Agree (pure b) p p' I Q :=
  ⟨hp, hQ⟩

theorem agree_throw {f : Fault} (hp : SameTrace p p') (hI : I p.session p'.session) :
    (throw f : Run α).Agree (throw f : Run α') p p' I Q :=
  ⟨hp, hI, rfl⟩

theorem agree_current (hp : SameTrace p p') :
    current.Agree current p p' I fun s s' a b => s = p.session ∧ s' = p'.session ∧ a = s ∧ b = s' :=
  ⟨hp, rfl, rfl, rfl, rfl⟩

theorem agree_update {f f' : Session → Session} (hp : SameTrace p p') :
    (update f).Agree (update f') p p' I fun s s' _ _ => s = f p.session ∧ s' = f' p'.session :=
  ⟨hp, rfl, rfl⟩

/-- The computations of two steps that give something both. -/
theorem agree_make {m : Making α} {m' : Making α'} {a : α} {b : α'} {t t' : Making.State}
    (hp : SameTrace p p') (h : m.Gives p.session.made a t) (h' : m'.Gives p'.session.made b t') :
    (make m).Agree (make m') p p' I fun s s' c d =>
      s = { p.session with made := t } ∧ s' = { p'.session with made := t' } ∧ c = a ∧ d = b := by
  unfold Making.Gives at h h'
  unfold Agree
  rw [run_make, run_make, h, h']
  exact ⟨hp, rfl, rfl, rfl, rfl⟩

theorem agree_modify {f f' : Progress → Progress} (hp : SameTrace (f p) (f' p')) :
    (modify f : Run Unit).Agree (modify f') p p' I fun s s' _ _ =>
      s = (f p).session ∧ s' = (f' p').session :=
  ⟨hp, rfl, rfl⟩

/-- A record leaves the same behind in sessions that log alike. -/
theorem agree_emit {r : LogRecord} (hp : SameTrace p p') (hlog : LogsAlike p.session p'.session)
    (hI : I p.session p'.session) :
    (emit r).Agree (emit r) p p' I fun s s' _ _ => s = p.session ∧ s' = p'.session := by
  refine (agree_current hp).bind fun s s' q q' hq hs => ?_
  obtain ⟨hs, hs', rfl, rfl⟩ := hs
  have hwrite : ∀ q₁ q₁' : Progress, SameTrace q₁ q₁' → q₁.session = p.session →
      q₁'.session = p'.session →
      (do
        modify fun q => { q with output := q.output ++ p.session.log.write p.session.now r }
        return true : Run Bool).Agree (do
        modify fun q => { q with output := q.output ++ p.session.log.write p.session.now r }
        return true) q₁ q₁' I fun s s' _ _ => s = p.session ∧ s' = p'.session := by
    intro q₁ q₁' hq₁ hs₁ hs₁'
    refine (agree_modify ⟨hq₁.1, by rw [hq₁.2]⟩).bind fun _ _ r r' hr hs => ?_
    exact agree_pure hr ⟨hs.1.trans hs₁, hs.2.trans hs₁'⟩
  dsimp only
  rw [hs, hs', ← hlog.log, ← hlog.recorded, ← hlog.now]
  split
  · split
    · split
      · refine (agree_modify ⟨by rw [hq.1], hq.2⟩).bind fun _ _ r r' hr hs₁ => ?_
        exact hwrite r r' hr (hs₁.1.trans hs) (hs₁.2.trans hs')
      · refine (agree_throw (Q := fun _ _ _ _ => False) hq ?_).bind fun _ _ _ _ _ h => h.elim
        rw [hs, hs']
        exact hI
    · exact hwrite q q' hq hs hs'
  · exact agree_pure hq ⟨hs, hs'⟩

theorem agree_emitAll {rs : List LogRecord} (hp : SameTrace p p')
    (hlog : LogsAlike p.session p'.session) (hI : I p.session p'.session) :
    (rs.forM fun r => discard (emit r)).Agree (rs.forM fun r => discard (emit r)) p p' I
      fun s s' _ _ => s = p.session ∧ s' = p'.session := by
  induction rs generalizing p p' with
  | nil => exact agree_pure hp ⟨rfl, rfl⟩
  | cons r rs ih =>
    have hfirst : (discard (emit r)).Agree (discard (emit r)) p p' I
        fun s s' _ _ => s = p.session ∧ s' = p'.session :=
      (agree_emit hp hlog hI).bind fun _ _ _ _ hq hs => agree_pure hq hs
    refine hfirst.bind fun _ _ q q' hq hs => ?_
    rw [← hs.1, ← hs.2] at hlog hI ⊢
    exact ih hq hlog hI

end Run

/-- Two reports show the same: both steps succeeded or failed with one fault, and they left the same
records and the same output. -/
structure SameReport (r r' : Report) : Prop where
  outcome : r.outcome.map (fun _ => ()) = r'.outcome.map fun _ => ()
  records : r.records = r'.records
  output : r.output = r'.output

/-- Two steps that agree are reported alike. -/
theorem step_of_agree {s s' : Session} {t t' : ScriptStep} {I : Session → Session → Prop}
    {Q : Session → Session → Answer → Answer → Prop}
    (h : (act t.action).Agree (act t'.action) ⟨s, [], []⟩ ⟨s', [], []⟩ I Q)
    (hQ : ∀ s s' a a', Q s s' a a' → I s s') :
    I (s.step t).1 (s'.step t').1 ∧ SameReport (s.step t).2 (s'.step t').2 := by
  unfold Run.Agree at h
  rcases hm : ((act t.action) ⟨s, [], []⟩ : Except Fault Answer × Progress) with ⟨e | a, q⟩ <;>
    rcases hm' : ((act t'.action) ⟨s', [], []⟩ : Except Fault Answer × Progress) with
      ⟨e' | a', q'⟩ <;>
    rw [hm, hm'] at h
  · obtain ⟨hs, hr, hrecords, houtput⟩ := step_of_act hm
    obtain ⟨hs', hr', hrecords', houtput'⟩ := step_of_act hm'
    obtain ⟨htrace, hI, rfl⟩ := h
    rw [hs, hs']
    exact ⟨hI, hr.trans hr'.symm, by rw [hrecords, hrecords', htrace.1],
      by rw [houtput, houtput', htrace.2]⟩
  · exact h.elim
  · exact h.elim
  · obtain ⟨hs, hr, hrecords, houtput⟩ := step_of_act hm
    obtain ⟨hs', hr', hrecords', houtput'⟩ := step_of_act hm'
    obtain ⟨htrace, hI⟩ := h
    rw [hs, hs']
    exact ⟨hQ _ _ _ _ hI, hr.trans hr'.symm, by rw [hrecords, hrecords', htrace.1],
      by rw [houtput, houtput', htrace.2]⟩

end Session

end CredentialWrites
