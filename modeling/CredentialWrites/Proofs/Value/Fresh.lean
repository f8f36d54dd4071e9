import CredentialWrites.Proofs.Making
import CredentialWrites.Proofs.Value.Cells
import CredentialWrites.Value.Snapshot

/-!
# New objects

Time passes while objects are made, whether a computation gives a value or fails. The cell of a new
object starts with the moment of its making, so that it is the cell of nothing that was made before.
Copies are made of new objects only; a snapshot keeps the keys of its mappings, which are no copies.

* `Making.Yields` : time passes during a computation, and what it gives has a property.
* `Making.Admits` : cells of a kind, among which are those of all objects made from a moment on.
* `Value.Own` : the objects of a snapshot, apart from its keys.
* `Value.yields_freeze`, `Value.yields_thaw` : the objects of snapshots and of plain copies.
-/

namespace CredentialWrites

namespace Making

variable {α β : Type} {s : State}

/-- Time does not go back during the computation from a state on, and what it gives has a property
at the moment when it is done. -/
def Yields (m : Making α) (s : State) (Q : Nat → α → Prop) : Prop :=
  s.moment ≤ (m s).2.moment ∧ ∀ a t, m.Gives s a t → Q t.moment a

variable {m : Making α} {Q Q' : Nat → α → Prop} {R : Nat → β → Prop}

theorem Yields.mono (h : m.Yields s Q) (hQ : ∀ n a, s.moment ≤ n → Q n a → Q' n a) :
    m.Yields s Q' := by
  refine ⟨h.1, fun a t ha => ?_⟩
  have hle : s.moment ≤ t.moment := by
    have hle := h.1
    unfold Gives at ha
    rwa [ha] at hle
  exact hQ _ _ hle (h.2 a t ha)

theorem Yields.moment_le {a : α} {t : State} (h : m.Yields s Q) (ha : m.Gives s a t) :
    s.moment ≤ t.moment := by
  have hle := h.1
  unfold Gives at ha
  rwa [ha] at hle

theorem yields_pure {a : α} (h : Q s.moment a) : (pure a : Making α).Yields s Q := by
  refine ⟨Nat.le_refl _, fun b t hb => ?_⟩
  obtain ⟨rfl, rfl⟩ := gives_pure.1 hb
  exact h

theorem yields_fail {f : Fault} : (fail f : Making α).Yields s Q :=
  ⟨Nat.le_refl _, fun _ _ h => absurd h not_gives_fail⟩

theorem yields_lift {e : Except Fault α} (h : ∀ a, e = .ok a → Q s.moment a) :
    (liftM e : Making α).Yields s Q := by
  refine ⟨Nat.le_refl _, fun a t ha => ?_⟩
  obtain ⟨he, rfl⟩ := gives_lift.1 ha
  exact h a he

theorem Yields.bind {f : α → Making β} (h : m.Yields s Q)
    (hf : ∀ a t, s.moment ≤ t.moment → Q t.moment a → (f a).Yields t R) : (m >>= f).Yields s R := by
  rcases gives_or_fails m s with ⟨a, t, ha⟩ | ⟨e, t, he⟩
  · have hle := h.moment_le ha
    have hrest := hf a t hle (h.2 a t ha)
    have hrun : (m >>= f) s = f a t := by
      unfold Gives at ha
      rw [run_bind, ha]
    refine ⟨?_, fun b u hb => ?_⟩
    · rw [hrun]
      exact Nat.le_trans hle hrest.1
    · unfold Gives at hb
      rw [hrun] at hb
      exact hrest.2 b u hb
  · have hrun : (m >>= f) s = (.error e, t) := by
      unfold Fails at he
      rw [run_bind, he]
    refine ⟨?_, fun b u hb => ?_⟩
    · have hle := h.1
      unfold Fails at he
      rw [he] at hle
      rwa [hrun]
    · unfold Gives at hb
      rw [hrun] at hb
      cases hb

theorem yields_get : (get : Making State).Yields s fun _ _ => True :=
  ⟨Nat.le_refl _, fun _ _ _ => trivial⟩

theorem yields_take {cell : Cell} : (take cell).Yields s fun _ _ => True :=
  ⟨Nat.le_refl _, fun _ _ _ => trivial⟩

theorem yields_tick : tick.Yields s fun n now => now + 1 = n ∧ s.moment ≤ now := by
  refine ⟨Nat.le_succ _, fun now t h => ?_⟩
  obtain ⟨rfl, rfl⟩ := gives_tick.1 h
  exact ⟨rfl, Nat.le_refl _⟩

/-- The cells of a kind at a moment are of that kind later on, and the cell of an object made at a
moment is from then on, unless the moment was too early. -/
structure Admits (P : Nat → Cell → Prop) (start : Nat) : Prop where
  later : ∀ {n n' : Nat} {c : Cell}, n ≤ n' → P n c → P n' c
  made : ∀ {now : Nat} (c : Cell), start ≤ now → P (now + 1) (now :: c)

/-- The cells of the objects that were made from a moment on. -/
def MadeSince (start : Nat) (n : Nat) (c : Cell) : Prop :=
  ∃ now old, c = now :: old ∧ start ≤ now ∧ now < n

theorem admits_madeSince (start : Nat) : Admits (MadeSince start) start where
  later := fun hle ⟨now, old, hc, hstart, hlt⟩ => ⟨now, old, hc, hstart, Nat.lt_of_lt_of_le hlt hle⟩
  made := fun c hstart => ⟨_, c, rfl, hstart, Nat.lt_succ_self _⟩

section Objects

variable {P : Nat → Cell → Prop} {start : Nat} (hP : Admits P start) (hs : start ≤ s.moment)

include hP

theorem Admits.within {n n' : Nat} {v : Value} (hle : n ≤ n') (h : v.Within (P n)) :
    v.Within (P n') :=
  h.mono fun _ => hP.later hle

theorem Admits.withinAll {n n' : Nat} {vs : List Value} (hle : n ≤ n')
    (h : Value.WithinAll (P n) vs) : Value.WithinAll (P n') vs :=
  h.mono fun _ => hP.later hle

theorem Admits.withinEntries {n n' : Nat} {es : List (Value × Value)} (hle : n ≤ n')
    (h : Value.WithinEntries (P n) es) : Value.WithinEntries (P n') es :=
  h.mono fun _ => hP.later hle

theorem Admits.withinAttrs {n n' : Nat} {attrs : List (String × Value)} (hle : n ≤ n')
    (h : Value.WithinAttrs (P n) attrs) : Value.WithinAttrs (P n') attrs :=
  h.mono fun _ => hP.later hle

include hs

theorem yields_fresh : fresh.Yields s P := by
  refine yields_tick.bind fun now t _ h => yields_pure ?_
  rw [← h.1]
  exact hP.made [] (Nat.le_trans hs h.2)

theorem yields_list {items : List Value} (h : Value.WithinAll (P s.moment) items) :
    (list items).Yields s fun n v => v.Within (P n) :=
  (yields_fresh hP hs).bind fun _ _ hle hc => yields_pure ⟨hc, hP.withinAll hle h⟩

theorem yields_map {es : List (Value × Value)} (h : Value.WithinEntries (P s.moment) es) :
    (map es).Yields s fun n v => v.Within (P n) :=
  (yields_fresh hP hs).bind fun _ _ hle hc => yields_pure ⟨hc, hP.withinEntries hle h⟩

theorem yields_object {kind : ObjectKind} {attrs : List (String × Value)}
    (h : Value.WithinAttrs (P s.moment) attrs) :
    (object kind attrs).Yields s fun n v => v.Within (P n) :=
  (yields_fresh hP hs).bind fun _ _ hle hc => yields_pure ⟨hc, hP.withinAttrs hle h⟩

end Objects

/-! ### Items -/

/-- What a computation makes of each of some values, if what it makes of one keeps its property. -/
theorem yields_each {f : Value → Making α} {p : Value → Prop}
    (hQ : ∀ n n' a, n ≤ n' → Q n a → Q n' a)
    (hf : ∀ v t, p v → s.moment ≤ t.moment → (f v).Yields t Q) {vs : List Value}
    (hvs : ∀ v ∈ vs, p v) :
    (each f vs).Yields s fun n as => ∀ a ∈ as, Q n a := by
  induction vs generalizing s with
  | nil => exact yields_pure (by simp)
  | cons v vs ih =>
    rw [List.forall_mem_cons] at hvs
    refine (hf v s hvs.1 (Nat.le_refl _)).bind fun a t hle ha => ?_
    refine (ih (fun w u hw hu => hf w u hw (Nat.le_trans hle hu)) hvs.2).bind fun as u hle' has =>
      ?_
    exact yields_pure (List.forall_mem_cons.2 ⟨hQ _ _ _ hle' ha, has⟩)

theorem yields_eachTaken {cell : Cell} {f : Value → Making α} {p : Value → Prop}
    (hQ : ∀ n n' a, n ≤ n' → Q n a → Q n' a)
    (hf : ∀ v t, p v → s.moment ≤ t.moment → (f v).Yields t Q) {vs : List Value}
    (hvs : ∀ v ∈ vs, p v) :
    (eachTaken cell f vs).Yields s fun n as => ∀ a ∈ as, Q n a := by
  induction vs generalizing s with
  | nil => exact yields_pure (by simp)
  | cons v vs ih =>
    rw [List.forall_mem_cons] at hvs
    refine yields_take.bind fun _ t hle _ => ?_
    refine (hf v t hvs.1 hle).bind fun a u hle' ha => ?_
    refine (ih (fun w r hw hr => hf w r hw (Nat.le_trans hle (Nat.le_trans hle' hr))) hvs.2).bind
      fun as r hle'' has => ?_
    exact yields_pure (List.forall_mem_cons.2 ⟨hQ _ _ _ hle'' ha, has⟩)

end Making

namespace Value

open Making

variable {α : Type} {s : Making.State} {P : Nat → Cell → Prop} {start : Nat}

/-- What a computation makes of the items of a value. -/
theorem yields_forEach {f : Value → Making α} {p : Value → Prop} {Q : Nat → α → Prop} {v : Value}
    (hQ : ∀ n n' a, n ≤ n' → Q n a → Q n' a)
    (hf : ∀ w t, p w → s.moment ≤ t.moment → (f w).Yields t Q)
    (hitems : ∀ vs, v.items = .ok vs → ∀ w ∈ vs, p w) :
    (v.forEach f).Yields s fun n as => ∀ a ∈ as, Q n a := by
  unfold forEach
  split
  · refine yields_get.bind fun t u hle _ => ?_
    refine yields_eachTaken hQ (fun w r hw hr => hf w r hw (Nat.le_trans hle hr)) fun w hw => ?_
    exact hitems _ rfl w (List.mem_of_mem_drop hw)
  · have hlift : (liftM v.items : Making (List Value)).Yields s fun _ vs => ∀ w ∈ vs, p w :=
      yields_lift hitems
    refine hlift.bind fun vs t hle hvs => ?_
    exact yields_each hQ (fun w r hw hr => hf w r hw (Nat.le_trans hle hr)) hvs

/-- The items that are taken from a value. -/
theorem yields_takeItems {p : Value → Prop} {v : Value}
    (hitems : ∀ vs, v.items = .ok vs → ∀ w ∈ vs, p w) :
    v.takeItems.Yields s fun _ vs => ∀ w ∈ vs, p w :=
  yields_forEach (Q := fun _ => p) (fun _ _ _ _ h => h) (fun _ _ hw _ => yields_pure hw) hitems

/-! ### Snapshots -/

mutual

/-- All objects of a snapshot, apart from those in its keys, have cells of a kind. -/
def Own (P : Cell → Prop) : Value → Prop
  | view es => OwnEntries P es
  | tuple items => OwnAll P items
  | frozenSet items => OwnAll P items
  | v => v.Within P

/-- `Own` for every value of a list. -/
def OwnAll (P : Cell → Prop) : List Value → Prop
  | [] => True
  | v :: vs => Own P v ∧ OwnAll P vs

/-- `Own` for the values of a mapping. -/
def OwnEntries (P : Cell → Prop) : List (Value × Value) → Prop
  | [] => True
  | (_, v) :: es => Own P v ∧ OwnEntries P es

end

mutual

theorem Within.own {P : Cell → Prop} : ∀ {v : Value}, v.Within P → v.Own P
  | view _, h => WithinEntries.own h
  | tuple _, h | frozenSet _, h => WithinAll.own h
  | null, h | bool _, h | int _, h | float _, h | nan _, h | text _, h | bytes _, h | member _, h
  | record _ _, h | list _ _, h | set _ _, h | map _ _, h | buffer _ _, h | stream _ _, h
  | fault _ _ _ _, h | object _ _ _, h => h

theorem WithinAll.own {P : Cell → Prop} : ∀ {vs : List Value}, WithinAll P vs → OwnAll P vs
  | [], _ => trivial
  | _ :: _, h => ⟨h.1.own, h.2.own⟩

theorem WithinEntries.own {P : Cell → Prop} : ∀ {es : List (Value × Value)}, WithinEntries P es →
    OwnEntries P es
  | [], _ => trivial
  | (_, _) :: _, h => ⟨h.2.1.own, h.2.2.own⟩

end

mutual

theorem Own.mono {P Q : Cell → Prop} (hPQ : ∀ c, P c → Q c) : ∀ {v : Value}, v.Own P → v.Own Q
  | view _, h => OwnEntries.mono hPQ h
  | tuple _, h | frozenSet _, h => OwnAll.mono hPQ h
  | null, h | bool _, h | int _, h | float _, h | nan _, h | text _, h | bytes _, h | member _, h
  | record _ _, h | list _ _, h | set _ _, h | map _ _, h | buffer _ _, h | stream _ _, h
  | fault _ _ _ _, h | object _ _ _, h => Within.mono hPQ h

theorem OwnAll.mono {P Q : Cell → Prop} (hPQ : ∀ c, P c → Q c) : ∀ {vs : List Value}, OwnAll P vs →
    OwnAll Q vs
  | [], _ => trivial
  | _ :: _, h => ⟨h.1.mono hPQ, h.2.mono hPQ⟩

theorem OwnEntries.mono {P Q : Cell → Prop} (hPQ : ∀ c, P c → Q c) :
    ∀ {es : List (Value × Value)}, OwnEntries P es → OwnEntries Q es
  | [], _ => trivial
  | (_, _) :: _, h => ⟨h.1.mono hPQ, h.2.mono hPQ⟩

end

mutual

/-- All objects in the keys of a document have cells of a kind. The parts that are copied have no
keys to look at. -/
def KeysWithin (P : Cell → Prop) : Value → Prop
  | view es => EntryKeysWithin P es
  | map _ es => EntryKeysWithin P es
  | list _ items => AllKeysWithin P items
  | set _ items => AllKeysWithin P items
  | tuple items => AllKeysWithin P items
  | frozenSet items => AllKeysWithin P items
  | _ => True

/-- `KeysWithin` for every value of a list. -/
def AllKeysWithin (P : Cell → Prop) : List Value → Prop
  | [] => True
  | v :: vs => KeysWithin P v ∧ AllKeysWithin P vs

/-- The keys of a mapping, and those in its values. -/
def EntryKeysWithin (P : Cell → Prop) : List (Value × Value) → Prop
  | [] => True
  | (k, v) :: es => k.Within P ∧ KeysWithin P v ∧ EntryKeysWithin P es

end

mutual

theorem Within.keysWithin {P : Cell → Prop} : ∀ {v : Value}, v.Within P → v.KeysWithin P
  | view _, h => WithinEntries.keysWithin h
  | map _ _, h => WithinEntries.keysWithin h.2
  | list _ _, h | set _ _, h => WithinAll.keysWithin h.2
  | tuple _, h | frozenSet _, h => WithinAll.keysWithin h
  | null, _ | bool _, _ | int _, _ | float _, _ | nan _, _ | text _, _ | bytes _, _ | member _, _
  | record _ _, _ | buffer _ _, _ | stream _ _, _ | fault _ _ _ _, _ | object _ _ _, _ => trivial

theorem WithinAll.keysWithin {P : Cell → Prop} : ∀ {vs : List Value}, WithinAll P vs →
    AllKeysWithin P vs
  | [], _ => trivial
  | _ :: _, h => ⟨h.1.keysWithin, h.2.keysWithin⟩

theorem WithinEntries.keysWithin {P : Cell → Prop} :
    ∀ {es : List (Value × Value)}, WithinEntries P es →
    EntryKeysWithin P es
  | [], _ => trivial
  | (_, _) :: _, h => ⟨h.1, h.2.1.keysWithin, h.2.2.keysWithin⟩

end

mutual

theorem KeysWithin.mono {P Q : Cell → Prop} (hPQ : ∀ c, P c → Q c) :
    ∀ {v : Value}, v.KeysWithin P → v.KeysWithin Q
  | view _, h | map _ _, h => EntryKeysWithin.mono hPQ h
  | list _ _, h | set _ _, h | tuple _, h | frozenSet _, h => AllKeysWithin.mono hPQ h
  | null, _ | bool _, _ | int _, _ | float _, _ | nan _, _ | text _, _ | bytes _, _ | member _, _
  | record _ _, _ | buffer _ _, _ | stream _ _, _ | fault _ _ _ _, _ | object _ _ _, _ => trivial

theorem AllKeysWithin.mono {P Q : Cell → Prop} (hPQ : ∀ c, P c → Q c) :
    ∀ {vs : List Value}, AllKeysWithin P vs → AllKeysWithin Q vs
  | [], _ => trivial
  | _ :: _, h => ⟨h.1.mono hPQ, h.2.mono hPQ⟩

theorem EntryKeysWithin.mono {P Q : Cell → Prop} (hPQ : ∀ c, P c → Q c) :
    ∀ {es : List (Value × Value)}, EntryKeysWithin P es → EntryKeysWithin Q es
  | [], _ => trivial
  | (_, _) :: _, h => ⟨h.1.mono hPQ, h.2.1.mono hPQ, h.2.2.mono hPQ⟩

end

mutual

/-- A snapshot is made of new objects and of its keys. -/
theorem Own.within {P : Cell → Prop} : ∀ {v : Value}, v.Own P → v.KeysWithin P → v.Within P
  | view _, h, hk => OwnEntries.within h hk
  | tuple _, h, hk | frozenSet _, h, hk => OwnAll.within h hk
  | null, h, _ | bool _, h, _ | int _, h, _ | float _, h, _ | nan _, h, _ | text _, h, _
  | bytes _, h, _
  | member _, h, _ | record _ _, h, _ | list _ _, h, _ | set _ _, h, _ | map _ _, h, _
  | buffer _ _, h, _ | stream _ _, h, _ | fault _ _ _ _, h, _ | object _ _ _, h, _ => h

theorem OwnAll.within {P : Cell → Prop} : ∀ {vs : List Value}, OwnAll P vs → AllKeysWithin P vs →
    WithinAll P vs
  | [], _, _ => trivial
  | _ :: _, h, hk => ⟨h.1.within hk.1, h.2.within hk.2⟩

theorem OwnEntries.within {P : Cell → Prop} : ∀ {es : List (Value × Value)}, OwnEntries P es →
    EntryKeysWithin P es → WithinEntries P es
  | [], _, _ => trivial
  | (_, _) :: _, h, hk => ⟨hk.1, h.1.within hk.2.1, h.2.within hk.2.2⟩

end

/-! ### Changes to snapshots -/

mutual

/-- A change to an object that is none of a snapshot's own leaves it made of its own objects. -/
theorem own_replace {P : Cell → Prop} {cell : Cell} {new : Value} (hcell : ¬ P cell) :
    ∀ {v : Value}, v.Own P → (replace cell new v).Own P
  | view _, h => ownEntries_replace hcell h
  | tuple _, h | frozenSet _, h => ownAll_replace hcell h
  | null, h | bool _, h | int _, h | float _, h | nan _, h | text _, h | bytes _, h | member _, h
  | record _ _, h | list _ _, h | set _ _, h | map _ _, h | buffer _ _, h | stream _ _, h
  | fault _ _ _ _, h | object _ _ _, h => by rwa [replace_of_within hcell h]

theorem ownAll_replace {P : Cell → Prop} {cell : Cell} {new : Value} (hcell : ¬ P cell) :
    ∀ {vs : List Value}, OwnAll P vs → OwnAll P (replaceAll cell new vs)
  | [], _ => trivial
  | _ :: _, h => ⟨own_replace hcell h.1, ownAll_replace hcell h.2⟩

theorem ownEntries_replace {P : Cell → Prop} {cell : Cell} {new : Value} (hcell : ¬ P cell) :
    ∀ {es : List (Value × Value)}, OwnEntries P es → OwnEntries P (replaceEntries cell new es)
  | [], _ => trivial
  | (_, _) :: _, h => ⟨own_replace hcell h.1, ownEntries_replace hcell h.2⟩

end

mutual

/-- A change puts nothing into the keys of a document but the objects of the new one. -/
theorem keysWithin_replace {P : Cell → Prop} {cell : Cell} {new : Value} (hnew : new.Within P) :
    ∀ {v : Value}, v.KeysWithin P → (replace cell new v).KeysWithin P
  | view _, h => entryKeysWithin_replace hnew h
  | tuple _, h | frozenSet _, h => allKeysWithin_replace hnew h
  | map _ _, h => by
    rw [replace]
    split
    · exact hnew.keysWithin
    · exact entryKeysWithin_replace hnew h
  | list _ _, h | set _ _, h => by
    rw [replace]
    split
    · exact hnew.keysWithin
    · exact allKeysWithin_replace hnew h
  | buffer _ _, _ | stream _ _, _ | fault _ _ _ _, _ | object _ _ _, _ => by
    rw [replace]
    split
    · exact hnew.keysWithin
    · trivial
  | null, _ | bool _, _ | int _, _ | float _, _ | nan _, _ | text _, _ | bytes _, _ | member _, _
  | record _ _, _ => trivial

theorem allKeysWithin_replace {P : Cell → Prop} {cell : Cell} {new : Value} (hnew : new.Within P) :
    ∀ {vs : List Value}, AllKeysWithin P vs → AllKeysWithin P (replaceAll cell new vs)
  | [], _ => trivial
  | _ :: _, h => ⟨keysWithin_replace hnew h.1, allKeysWithin_replace hnew h.2⟩

theorem entryKeysWithin_replace {P : Cell → Prop} {cell : Cell} {new : Value}
    (hnew : new.Within P) :
    ∀ {es : List (Value × Value)}, EntryKeysWithin P es →
      EntryKeysWithin P (replaceEntries cell new es)
  | [], _ => trivial
  | (_, _) :: _, h => ⟨within_replace hnew h.1, keysWithin_replace hnew h.2.1,
      entryKeysWithin_replace hnew h.2.2⟩

end

section Copies

variable (hP : Admits P start)

include hP

/-- A copy is made of new objects. -/
theorem yields_copy (hs : start ≤ s.moment) (v : Value) :
    (copy v).Yields s fun n w => w.Within (P n) := by
  unfold copy
  split
  · exact yields_fail
  · refine yields_tick.bind fun now t _ h => yields_pure ?_
    rw [← h.1]
    exact within_relabel (fun c => hP.made c (Nat.le_trans hs h.2)) v

mutual

/-- A snapshot is made of new objects, apart from its keys. -/
theorem yields_freeze : ∀ (v : Value) {s : Making.State}, start ≤ s.moment →
    (freeze v).Yields s fun n w => w.Own (P n)
  | view es, _, hs | map _ es, _, hs =>
    (yields_freezeEntries es hs).bind fun _ _ _ h => yields_pure h
  | list _ items, _, hs | tuple items, _, hs | set _ items, _, hs | frozenSet items, _, hs =>
    (yields_freezeAll items hs).bind fun _ _ _ h => yields_pure h
  | null, _, hs | bool _, _, hs | int _, _, hs | float _, _, hs | nan _, _, hs | text _, _, hs
  | bytes _, _, hs | member _, _, hs | record _ _, _, hs | buffer _ _, _, hs | stream _ _, _, hs
  | fault _ _ _ _, _, hs | object _ _ _, _, hs => (yields_copy hP hs _).mono fun _ _ _ h => h.own

theorem yields_freezeAll : ∀ (vs : List Value) {s : Making.State}, start ≤ s.moment →
    (freezeAll vs).Yields s fun n ws => OwnAll (P n) ws
  | [], _, _ => yields_pure trivial
  | v :: vs, _, hs => by
    refine (yields_freeze v hs).bind fun w t hle hw => ?_
    refine (yields_freezeAll vs (Nat.le_trans hs hle)).bind fun ws u hle' hws => yields_pure ?_
    exact ⟨hw.mono fun _ => hP.later hle', hws⟩

theorem yields_freezeEntries : ∀ (es : List (Value × Value)) {s : Making.State}, start ≤ s.moment →
    (freezeEntries es).Yields s fun n es' => OwnEntries (P n) es'
  | [], _, _ => yields_pure trivial
  | (k, v) :: es, _, hs => by
    refine (yields_freeze v hs).bind fun w t hle hw => ?_
    refine (yields_freezeEntries es (Nat.le_trans hs hle)).bind fun ws u hle' hws => yields_pure ?_
    exact ⟨hw.mono fun _ => hP.later hle', hws⟩

end

mutual

/-- A plain copy is made of new objects, apart from those in its keys, which are kept. -/
theorem yields_thaw : ∀ (v : Value) {s : Making.State}, start ≤ s.moment →
    v.KeysWithin (P s.moment) →
    (thaw v).Yields s fun n w => w.Within (P n)
  | view es, _, hs, hk | map _ es, _, hs, hk =>
    (yields_thawEntries es hs hk).bind fun _ _ hle h => yields_map hP (Nat.le_trans hs hle) h
  | list _ items, _, hs, hk | tuple items, _, hs, hk =>
    (yields_thawAll items hs hk).bind fun _ _ hle h => yields_list hP (Nat.le_trans hs hle) h
  | null, _, hs, _ | bool _, _, hs, _ | int _, _, hs, _ | float _, _, hs, _ | nan _, _, hs, _
  | text _, _, hs, _ | bytes _, _, hs, _ | member _, _, hs, _ | frozenSet _, _, hs, _
  | record _ _, _, hs, _ | set _ _, _, hs, _ | buffer _ _, _, hs, _ | stream _ _, _, hs, _
  | fault _ _ _ _, _, hs, _ | object _ _ _, _, hs, _ => yields_copy hP hs _

theorem yields_thawAll : ∀ (vs : List Value) {s : Making.State}, start ≤ s.moment →
    AllKeysWithin (P s.moment) vs → (thawAll vs).Yields s fun n ws => WithinAll (P n) ws
  | [], _, _, _ => yields_pure trivial
  | v :: vs, _, hs, hk => by
    refine (yields_thaw v hs hk.1).bind fun w t hle hw => ?_
    refine (yields_thawAll vs (Nat.le_trans hs hle) (hk.2.mono fun _ => hP.later hle)).bind
      fun ws u hle' hws => yields_pure ?_
    exact ⟨hP.within hle' hw, hws⟩

theorem yields_thawEntries : ∀ (es : List (Value × Value)) {s : Making.State}, start ≤ s.moment →
    EntryKeysWithin (P s.moment) es → (thawEntries es).Yields s fun n es' => WithinEntries (P n) es'
  | [], _, _, _ => yields_pure trivial
  | (k, v) :: es, _, hs, hk => by
    refine (yields_thaw v hs hk.2.1).bind fun w t hle hw => ?_
    refine (yields_thawEntries es (Nat.le_trans hs hle) (hk.2.2.mono fun _ => hP.later hle)).bind
      fun ws u hle' hws => yields_pure ?_
    exact ⟨hP.within (Nat.le_trans hle hle') hk.1, hP.within hle' hw, hws⟩

end

end Copies

/-! ### Streams -/

theorem taken_of_gives_copy {v w : Value} {t : Making.State} (h : (copy v).Gives s w t) :
    t.taken = s.taken := by
  unfold copy at h
  split at h
  · exact absurd h not_gives_fail
  · obtain ⟨now, u, hnow, h⟩ := gives_bind.1 h
    obtain ⟨-, rfl⟩ := gives_tick.1 hnow
    rw [← (gives_pure.1 h).2]

mutual

/-- A snapshot takes nothing from streams. -/
theorem taken_of_gives_freeze : ∀ {v w : Value} {s t : Making.State}, (freeze v).Gives s w t →
    t.taken = s.taken
  | view es, _, _, _, h | map _ es, _, _, _, h => by
    obtain ⟨es', u, hes, h⟩ := gives_bind.1 h
    rw [← (gives_pure.1 h).2, taken_of_gives_freezeEntries hes]
  | list _ items, _, _, _, h | tuple items, _, _, _, h | set _ items, _, _, _, h
  | frozenSet items, _, _, _, h => by
    obtain ⟨items', u, hitems, h⟩ := gives_bind.1 h
    rw [← (gives_pure.1 h).2, taken_of_gives_freezeAll hitems]
  | null, _, _, _, h | bool _, _, _, _, h | int _, _, _, _, h | float _, _, _, _, h
  | nan _, _, _, _, h | text _, _, _, _, h | bytes _, _, _, _, h | member _, _, _, _, h
  | record _ _, _, _, _, h | buffer _ _, _, _, _, h | stream _ _, _, _, _, h
  | fault _ _ _ _, _, _, _, h | object _ _ _, _, _, _, h => by
    simp only [freeze] at h
    exact taken_of_gives_copy h

theorem taken_of_gives_freezeAll : ∀ {vs ws : List Value} {s t : Making.State},
    (freezeAll vs).Gives s ws t → t.taken = s.taken
  | [], _, _, _, h => by rw [← (gives_pure.1 h).2]
  | v :: vs, _, _, _, h => by
    obtain ⟨w, u, hw, h⟩ := gives_bind.1 h
    obtain ⟨ws, u', hws, h⟩ := gives_bind.1 h
    rw [← (gives_pure.1 h).2, taken_of_gives_freezeAll hws, taken_of_gives_freeze hw]

theorem taken_of_gives_freezeEntries : ∀ {es es' : List (Value × Value)} {s t : Making.State},
    (freezeEntries es).Gives s es' t → t.taken = s.taken
  | [], _, _, _, h => by rw [← (gives_pure.1 h).2]
  | (k, v) :: es, _, _, _, h => by
    obtain ⟨w, u, hw, h⟩ := gives_bind.1 h
    obtain ⟨es', u', hes, h⟩ := gives_bind.1 h
    rw [← (gives_pure.1 h).2, taken_of_gives_freezeEntries hes, taken_of_gives_freeze hw]

end

end Value

end CredentialWrites
