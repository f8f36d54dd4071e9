import CredentialWrites.Proofs.Value.Alike
import CredentialWrites.Value.Snapshot

/-!
# What is made at another time

The same computation, done at another time, makes the same objects under other names. With the names
of the new objects shifted by the time between, what it gives at one time is what it gives at the
other.

* `Making.shift` : the names of the objects that are made later on.
* `Making.Tracks` : a renaming of objects that goes with the time between two computations.
* `Value.agree_copy`, `Value.agree_thaw` : copies that are made at two times.
-/

namespace CredentialWrites

namespace Making

/-- The name of an object that is made from a moment on, when it is made as much after another
moment. -/
def shift (n n' : Nat) : Cell → Cell
  | [] => []
  | now :: old => if n ≤ now then (now - n + n') :: shift n n' old else now :: old

theorem shift_of_lt {n n' : Nat} {c : Cell} (h : ∀ now ∈ c.head?, now < n) : shift n n' c = c := by
  rcases c with _ | ⟨now, old⟩
  · rfl
  · have hlt := h now rfl
    rw [shift, if_neg (by omega)]

/-- No two objects get one name if time does not go back. -/
theorem shift_injective {n n' : Nat} (h : n ≤ n') : Function.Injective (shift n n') := by
  intro c
  induction c with
  | nil =>
    intro d heq
    rcases d with _ | ⟨now, old⟩
    · rfl
    · rw [shift, shift] at heq
      split at heq <;> cases heq
  | cons now old ih =>
    intro d heq
    rcases d with _ | ⟨now', old'⟩
    · rw [shift, shift] at heq
      split at heq <;> cases heq
    · rw [shift, shift] at heq
      split at heq <;> split at heq <;> rw [List.cons.injEq] at heq
      · rw [ih heq.2, show now = now' by omega]
      · omega
      · omega
      · rw [heq.1, heq.2]

/-- A renaming of objects goes with the time between two computations, each in a state of its
own. -/
structure Tracks (f : Cell → Cell) (I : State → State → Prop) : Prop where
  injective : Function.Injective f
  nil : f [] = []
  made : ∀ {s s' : State} (c : Cell), I s s' → f (s.moment :: c) = s'.moment :: f c
  tick : ∀ {s s' : State}, I s s' →
    I { s with moment := s.moment + 1 } { s' with moment := s'.moment + 1 }

/-- As much time has passed since a moment as since another. -/
def Apace (n n' : Nat) (s s' : State) : Prop :=
  n ≤ s.moment ∧ s'.moment = s.moment - n + n'

theorem tracks_shift {n n' : Nat} (h : n ≤ n') : Tracks (shift n n') (Apace n n') where
  injective := shift_injective h
  nil := rfl
  made := fun c hI => by rw [shift, if_pos hI.1, hI.2]
  tick := fun {s s'} hI => by
    obtain ⟨hle, heq⟩ := hI
    exact ⟨Nat.le_succ_of_le hle, by simp only; omega⟩

section Objects

variable {f : Cell → Cell} {I : State → State → Prop} {s s' : State} (h : Tracks f I) (hI : I s s')

include h hI

theorem agree_tick : tick.Agree tick s s' I fun now now' => ∀ c, f (now :: c) = now' :: f c :=
  ⟨h.tick hI, fun c => h.made c hI⟩

theorem agree_fresh : fresh.Agree fresh s s' I fun c c' => c' = f c :=
  (agree_tick h hI).bind fun now now' _ _ hI' hnow => agree_pure hI' (by rw [hnow, h.nil])

theorem agree_newList (vs : List Value) :
    (list vs).Agree (list (Value.relabelAll f vs)) s s' I
      fun v w => ∃ c, v = .list c vs ∧ w = .list (f c) (Value.relabelAll f vs) :=
  (agree_fresh h hI).bind fun c c' _ _ hI' hc => agree_pure hI' ⟨c, rfl, by rw [hc]⟩

theorem agree_list (vs : List Value) :
    (list vs).Agree (list (Value.relabelAll f vs)) s s' I fun v w => w = v.relabel f :=
  (agree_newList h hI vs).mono fun v w hc => by
    obtain ⟨c, rfl, rfl⟩ := hc
    rw [Value.relabel]

theorem agree_map (es : List (Value × Value)) :
    (map es).Agree (map (Value.relabelEntries f es)) s s' I fun v w => w = v.relabel f :=
  (agree_fresh h hI).bind fun c c' _ _ hI' hc => agree_pure hI' (by rw [hc, Value.relabel])

theorem agree_object (kind : ObjectKind) (attrs : List (String × Value)) :
    (object kind attrs).Agree (object kind (Value.relabelAttrs f attrs)) s s' I
      fun v w => w = v.relabel f :=
  (agree_fresh h hI).bind fun c c' _ _ hI' hc => agree_pure hI' (by rw [hc, Value.relabel])

end Objects

end Making

namespace Value

open Making

variable {f : Cell → Cell}

mutual

/-- What has no copy has none under other names. -/
theorem uncopyable?_relabel (f : Cell → Cell) :
    ∀ v : Value, (v.relabel f).uncopyable? = v.uncopyable?
  | tuple items | frozenSet items | record _ items | list _ items | set _ items => by
    simp only [relabel, uncopyable?, uncopyableAmong?_relabelAll f items]
  | map _ es => by simp only [relabel, uncopyable?, uncopyableEntry?_relabelEntries f es]
  | fault _ _ args attrs => by
    simp only [relabel, uncopyable?, uncopyableAmong?_relabelAll f args,
      uncopyableAttr?_relabelAttrs f attrs]
  | object _ _ attrs => by simp only [relabel, uncopyable?, uncopyableAttr?_relabelAttrs f attrs]
  | view _ | stream _ _ | null | bool _ | int _ | float _ | nan _ | text _ | bytes _ | member _
  | buffer _ _ => rfl

theorem uncopyableAmong?_relabelAll (f : Cell → Cell) :
    ∀ vs : List Value, uncopyableAmong? (relabelAll f vs) = uncopyableAmong? vs
  | [] => rfl
  | v :: vs => by
    simp only [relabelAll, uncopyableAmong?, uncopyable?_relabel f v,
      uncopyableAmong?_relabelAll f vs]

theorem uncopyableEntry?_relabelEntries (f : Cell → Cell) :
    ∀ es : List (Value × Value), uncopyableEntry? (relabelEntries f es) = uncopyableEntry? es
  | [] => rfl
  | (k, v) :: es => by
    simp only [relabelEntries, uncopyableEntry?, uncopyable?_relabel f k, uncopyable?_relabel f v,
      uncopyableEntry?_relabelEntries f es]

theorem uncopyableAttr?_relabelAttrs (f : Cell → Cell) :
    ∀ attrs : List (String × Value), uncopyableAttr? (relabelAttrs f attrs) = uncopyableAttr? attrs
  | [] => rfl
  | (_, v) :: attrs => by
    simp only [relabelAttrs, uncopyableAttr?, uncopyable?_relabel f v,
      uncopyableAttr?_relabelAttrs f attrs]

end

variable {I : State → State → Prop}

/-- Copies that are made at two times. -/
theorem agree_copy (h : Tracks f I) (v : Value) {s s' : State} (hI : I s s') :
    (copy v).Agree (copy (v.relabel f)) s s' I fun w w' => w' = w.relabel f := by
  unfold copy
  rw [uncopyable?_relabel]
  split
  · exact agree_fail hI
  · refine (agree_tick h hI).bind fun now now' t t' hI' hnow => agree_pure hI' ?_
    rw [relabel_relabel, relabel_relabel]
    exact congrArg (fun g => v.relabel g) (funext fun c => (hnow c).symm)

mutual

/-- Plain copies that are made at two times. -/
theorem agree_thaw (h : Tracks f I) : ∀ (v : Value) {s s' : State}, I s s' →
    (thaw v).Agree (thaw (v.relabel f)) s s' I fun w w' => w' = w.relabel f
  | view es, s, s', hI | map _ es, s, s', hI => by
    refine (agree_thawEntries h es hI).bind fun ds ds' t t' hI' hds => ?_
    rw [hds]
    exact agree_map h hI' ds
  | list _ items, s, s', hI | tuple items, s, s', hI => by
    refine (agree_thawAll h items hI).bind fun vs vs' t t' hI' hvs => ?_
    rw [hvs]
    exact agree_list h hI' vs
  | frozenSet _, _, _, hI | record _ _, _, _, hI | set _ _, _, _, hI | fault _ _ _ _, _, _, hI
  | object _ _ _, _, _, hI => agree_copy h _ hI
  | null, _, _, hI => agree_copy h null hI
  | bool b, _, _, hI => agree_copy h (bool b) hI
  | int i, _, _, hI => agree_copy h (int i) hI
  | float x, _, _, hI => agree_copy h (float x) hI
  | nan c, _, _, hI => agree_copy h (nan c) hI
  | text s, _, _, hI => agree_copy h (text s) hI
  | bytes bs, _, _, hI => agree_copy h (bytes bs) hI
  | member m, _, _, hI => agree_copy h (member m) hI
  | buffer c bs, _, _, hI => agree_copy h (buffer c bs) hI
  | stream c vs, _, _, hI => agree_copy h (stream c vs) hI

theorem agree_thawAll (h : Tracks f I) : ∀ (vs : List Value) {s s' : State}, I s s' →
    (thawAll vs).Agree (thawAll (relabelAll f vs)) s s' I fun ws ws' => ws' = relabelAll f ws
  | [], _, _, hI => agree_pure hI rfl
  | v :: vs, s, s', hI => by
    refine (agree_thaw h v hI).bind fun w w' t t' hI' hw => ?_
    refine (agree_thawAll h vs hI').bind fun ws ws' u u' hI'' hws => agree_pure hI'' ?_
    rw [hw, hws, relabelAll]

theorem agree_thawEntries (h : Tracks f I) : ∀ (es : List (Value × Value)) {s s' : State}, I s s' →
    (thawEntries es).Agree (thawEntries (relabelEntries f es)) s s' I
      fun ds ds' => ds' = relabelEntries f ds
  | [], _, _, hI => agree_pure hI rfl
  | (k, v) :: es, s, s', hI => by
    refine (agree_thaw h v hI).bind fun w w' t t' hI' hw => ?_
    refine (agree_thawEntries h es hI').bind fun ds ds' u u' hI'' hds => agree_pure hI'' ?_
    rw [hw, hds, relabelEntries]

end

end Value

end CredentialWrites
