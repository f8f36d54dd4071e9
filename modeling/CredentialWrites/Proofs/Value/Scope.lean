import CredentialWrites.Proofs.Value.Fresh
import CredentialWrites.Proofs.Value.Objects

/-!
# Computations within a scope

A scope is a kind of cells that all objects to be made will have, and that the methods have. A
computation on values whose objects are in the scope gives values whose objects are in the scope.

* `Making.Scope` : a kind of cells that computations do not lead out of.
* `Making.TimePasses` : time does not go back during a computation.
* `Value.yields_attr`, `Value.yields_setAttr` : attributes within a scope.
* `Value.yields_freezeMapping`, `Value.yields_thaw_within` : snapshots and plain copies within a
  scope.
-/

namespace CredentialWrites

namespace Making

/-- Cells of a kind, among which are those of all objects made from a moment on and that of the
methods. -/
structure Scope (P : Nat → Cell → Prop) (start : Nat) : Prop extends Admits P start where
  shared : ∀ n, P n []

/-- All cells are a scope. -/
theorem scope_all (start : Nat) : Scope (fun _ _ => True) start where
  later := fun _ _ => trivial
  made := fun _ _ => trivial
  shared := fun _ => trivial

variable {α : Type} {s : State}

/-- A check gives what it has found. -/
theorem yields_checked {e : Except Fault α} {g : α → Value} {Q : Nat → Value → Prop}
    (h : ∀ a, e = .ok a → Q s.moment (g a)) :
    (do return g (← liftM e) : Making Value).Yields s Q := by
  have hcheck : (liftM e : Making α).Yields s fun n a => n = s.moment ∧ e = .ok a :=
    yields_lift fun a ha => ⟨rfl, ha⟩
  refine hcheck.bind fun a t _ ha => yields_pure ?_
  rw [ha.1]
  exact h a ha.2

/-! ### Time -/

/-- Time does not go back while something is made. -/
def TimePasses {α : Type} (m : Making α) : Prop :=
  ∀ s, m.Yields s fun _ _ => True

section Time

variable {β : Type}

theorem TimePasses.bind {m : Making α} {f : α → Making β} (h : TimePasses m)
    (hf : ∀ a, TimePasses (f a)) : TimePasses (m >>= f) :=
  fun s => (h s).bind fun a t _ _ => hf a t

theorem TimePasses.map {m : Making α} {f : α → β} (h : TimePasses m) :
    TimePasses (m >>= fun a => pure (f a)) :=
  h.bind fun _ _ => yields_pure trivial

theorem TimePasses.ite {p : Prop} [Decidable p] {m m' : Making α} (h : TimePasses m)
    (h' : TimePasses m') : TimePasses (if p then m else m') := by
  split
  · exact h
  · exact h'

theorem timePasses_pure (a : α) : TimePasses (pure a : Making α) :=
  fun _ => yields_pure trivial

theorem timePasses_fail (f : Fault) : TimePasses (Making.fail f : Making α) :=
  fun _ => yields_fail

theorem timePasses_lift (e : Except Fault α) : TimePasses (liftM e : Making α) :=
  fun _ => yields_lift fun _ _ => trivial

theorem TimePasses.of_yields {m : Making α} {Q : State → Nat → α → Prop}
    (h : ∀ s, m.Yields s (Q s)) : TimePasses m :=
  fun s => (h s).mono fun _ _ _ _ => trivial

end Time

end Making

namespace Value

open Making

variable {α : Type} {s : Making.State} {P : Nat → Cell → Prop} {start : Nat} {v new : Value}

section Items

variable (hP : Admits P start)

include hP

/-- What a computation makes of the items of a value within a scope. -/
theorem yields_forEach_within {f : Value → Making α} {Q : Nat → α → Prop}
    (hv : v.Within (P s.moment)) (hQ : ∀ n n' a, n ≤ n' → Q n a → Q n' a)
    (hf : ∀ w t, s.moment ≤ t.moment → w.Within (P t.moment) → (f w).Yields t Q) :
    (v.forEach f).Yields s fun n as => ∀ a ∈ as, Q n a :=
  yields_forEach hQ (fun w t hw hle => hf w t hle (hP.within hle hw)) fun _ hvs =>
    withinAll_iff.1 (hv.items hvs)

theorem yields_takeItems_within (hv : v.Within (P s.moment)) :
    v.takeItems.Yields s fun n vs => WithinAll (P n) vs :=
  (yields_forEach_within (Q := fun n w => w.Within (P n)) hP hv (fun _ _ _ hle => hP.within hle)
    fun _ _ _ hw => yields_pure hw).mono fun _ _ _ h => withinAll_iff.2 h

end Items

section Attributes

variable (hP : Scope P start) (hs : start ≤ s.moment) (hv : v.Within (P s.moment))

include hP

theorem yields_storedAttr {name : String} (hv : v.Within (P s.moment)) :
    (liftM (v.storedAttr name) : Making Value).Yields s fun n w => w.Within (P n) :=
  yields_lift fun _ hw => hv.storedAttr (hP.shared _) hw

theorem yields_operationTokens (hv : v.Within (P s.moment)) :
    (operationTokens v).Yields s fun n vs => WithinAll (P n) vs := by
  refine (yields_forEach_within (Q := fun n w => w.Within (P n)) hP.toAdmits hv
    (fun _ _ _ hle => hP.within hle) fun op t _ hop => ?_).mono fun _ _ _ h => withinAll_iff.2 h
  exact yields_storedAttr hP hop

include hs hv

/-- An attribute has no objects but those of the value and new ones. -/
theorem yields_attr {name : String} : (v.attr name).Yields s fun n w => w.Within (P n) := by
  unfold attr
  split
  · rename_i actor operations
    refine (yields_operationTokens hP hv.2.1).bind fun vs t hle hvs => ?_
    exact yields_list hP.toAdmits (Nat.le_trans hs hle) hvs
  · exact yields_storedAttr hP hv

omit hs in
/-- An object with an attribute assigned has no objects but its own and those of the new value. -/
theorem yields_setAttr {name : String} (hnew : new.Within (P s.moment)) :
    (v.setAttr name new).Yields s fun n w => w.Within (P n) := by
  unfold setAttr
  split
  · exact yields_fail
  · refine yields_lift fun w hw => ?_
    unfold setMemberAttr at hw
    split at hw <;> cases hw
    trivial
  · split
    · refine (yields_takeItems_within hP.toAdmits hnew).bind fun vs t hle hvs => yields_pure ?_
      have hv := hP.within hle hv
      exact ⟨hv.1, hvs, hv.2.2⟩
    · exact yields_pure ⟨hv.1, hv.2.1, hv.2.2.putAttr hnew⟩
  · split
    · exact yields_fail
    · exact yields_pure ⟨hv.1, hv.2.putAttr hnew⟩
  · exact yields_fail

end Attributes

theorem timePasses_attr (v : Value) (name : String) : TimePasses (v.attr name) :=
  .of_yields fun s => yields_attr (scope_all s.moment) (Nat.le_refl _)
    (within_of_forall (fun _ => trivial) v)

theorem timePasses_takeItems (v : Value) : TimePasses v.takeItems :=
  .of_yields fun s => yields_takeItems_within (scope_all s.moment).toAdmits
    (within_of_forall (fun _ => trivial) v)

/-! ### Snapshots and copies -/

theorem keysWithin_of_gives_copy {P : Cell → Prop} {w : Value} {t : Making.State}
    (h : (copy v).Gives s w t) (hleaf : ∀ f, (v.relabel f).KeysWithin P) : w.KeysWithin P := by
  unfold copy at h
  split at h
  · exact absurd h not_gives_fail
  · obtain ⟨now, u, -, h⟩ := gives_bind.1 h
    rw [← (gives_pure.1 h).1]
    exact hleaf _

mutual

/-- The keys of a snapshot are those of the value. -/
theorem keysWithin_of_gives_freeze {P : Cell → Prop} :
    ∀ {v w : Value} {s t : Making.State}, v.KeysWithin P →
    (freeze v).Gives s w t → w.KeysWithin P
  | view _, _, _, _, hv, h | map _ _, _, _, _, hv, h => by
    obtain ⟨es', u, hes, h⟩ := gives_bind.1 h
    rw [← (gives_pure.1 h).1]
    exact entryKeysWithin_of_gives_freezeEntries hv hes
  | tuple _, _, _, _, hv, h | frozenSet _, _, _, _, hv, h | list _ _, _, _, _, hv, h
  | set _ _, _, _, _, hv, h => by
    obtain ⟨items', u, hitems, h⟩ := gives_bind.1 h
    rw [← (gives_pure.1 h).1]
    exact allKeysWithin_of_gives_freezeAll hv hitems
  | null, _, _, _, _, h | bool _, _, _, _, _, h | int _, _, _, _, _, h | float _, _, _, _, _, h
  | nan _, _, _, _, _, h | text _, _, _, _, _, h | bytes _, _, _, _, _, h | member _, _, _, _, _, h
  | record _ _, _, _, _, _, h | buffer _ _, _, _, _, _, h | stream _ _, _, _, _, _, h
  | fault _ _ _ _, _, _, _, _, h | object _ _ _, _, _, _, _, h => by
    simp only [freeze] at h
    exact keysWithin_of_gives_copy h fun _ => trivial

theorem allKeysWithin_of_gives_freezeAll {P : Cell → Prop} :
    ∀ {vs ws : List Value} {s t : Making.State}, AllKeysWithin P vs → (freezeAll vs).Gives s ws t →
    AllKeysWithin P ws
  | [], _, _, _, _, h => by
    rw [← (gives_pure.1 h).1]
    trivial
  | _ :: _, _, _, _, hvs, h => by
    obtain ⟨w, u, hw, h⟩ := gives_bind.1 h
    obtain ⟨ws', u', hws, h⟩ := gives_bind.1 h
    rw [← (gives_pure.1 h).1]
    exact ⟨keysWithin_of_gives_freeze hvs.1 hw, allKeysWithin_of_gives_freezeAll hvs.2 hws⟩

theorem entryKeysWithin_of_gives_freezeEntries {P : Cell → Prop} :
    ∀ {es es' : List (Value × Value)} {s t : Making.State}, EntryKeysWithin P es →
      (freezeEntries es).Gives s es' t → EntryKeysWithin P es'
  | [], _, _, _, _, h => by
    rw [← (gives_pure.1 h).1]
    trivial
  | (_, _) :: _, _, _, _, hes, h => by
    obtain ⟨w, u, hw, h⟩ := gives_bind.1 h
    obtain ⟨es'', u', hes', h⟩ := gives_bind.1 h
    rw [← (gives_pure.1 h).1]
    exact ⟨hes.1, keysWithin_of_gives_freeze hes.2.1 hw,
      entryKeysWithin_of_gives_freezeEntries hes.2.2 hes'⟩

end

theorem KeysWithin.entries? {P : Cell → Prop} {es : List (Value × Value)} (h : v.KeysWithin P)
    (hes : v.entries? = some es) : EntryKeysWithin P es := by
  cases v with
  | view _ | map _ _ =>
    cases hes
    exact h
  | _ => cases hes

theorem Within.entries? {P : Cell → Prop} {es : List (Value × Value)} (h : v.Within P)
    (hes : v.entries? = some es) : WithinEntries P es := by
  cases v with
  | view _ =>
    cases hes
    exact h
  | map _ _ =>
    cases hes
    exact h.2
  | _ => cases hes

section Copies

variable (hP : Admits P start) (hs : start ≤ s.moment)

include hP hs

/-- The entries of a mapping within a scope are frozen within it. -/
theorem yields_freezeEntries_within {es : List (Value × Value)}
    (hes : WithinEntries (P s.moment) es) :
    (freezeEntries es).Yields s fun n es' => WithinEntries (P n) es' := by
  have hown := yields_freezeEntries hP es hs
  refine ⟨hown.1, fun es' t h => (hown.2 es' t h).within ?_⟩
  refine EntryKeysWithin.mono (fun _ => hP.later (hown.moment_le h)) ?_
  exact entryKeysWithin_of_gives_freezeEntries hes.keysWithin h

theorem yields_freezeMapping (hv : v.Within (P s.moment)) :
    v.freezeMapping.Yields s fun n w => w.Within (P n) := by
  unfold freezeMapping
  split
  · rename_i es hes
    exact (yields_freezeEntries_within hP hs (hv.entries? hes)).bind fun _ _ _ h => yields_pure h
  · exact yields_fail

theorem yields_thaw_within (hv : v.Within (P s.moment)) :
    (thaw v).Yields s fun n w => w.Within (P n) :=
  yields_thaw hP v hs hv.keysWithin

end Copies

end Value

end CredentialWrites
