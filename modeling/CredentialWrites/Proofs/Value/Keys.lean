import CredentialWrites.Proofs.Making
import CredentialWrites.Value.Hashing

/-!
# Keys

A set or a mapping that is made anew from its own members or entries is the same again: each of its
keys is hashable, and no key is alike one before it. A key that holds a frozen set may be told so
only if the same is true of that set.

* `Value.isKey` : a value that a mapping can have as a key.
* `Value.distinct_eq_ok`, `Value.entriesOf_eq_ok` : sets and mappings made anew.
-/

namespace CredentialWrites

namespace Value

/-- No value is alike one before it. -/
def noneAlike : List Value → Bool
  | [] => true
  | v :: vs => vs.all (fun w => !alike w v) && noneAlike vs

mutual

/-- A value that a mapping can have as a key: it is hashable, and its frozen sets have no member
twice. -/
def isKey : Value → Bool
  | tuple items => areKeys items
  | frozenSet items => areKeys items && noneAlike items
  | v => v.unhashable?.isNone

/-- `isKey` for every value of a list. -/
def areKeys : List Value → Bool
  | [] => true
  | v :: vs => isKey v && areKeys vs

end

mutual

theorem unhashable?_of_isKey : ∀ {v : Value}, isKey v → v.unhashable? = none
  | tuple items, h => by
    rw [isKey] at h
    rw [unhashable?]
    exact unhashableAmong?_of_areKeys h
  -- its members were hashable when it was made
  | frozenSet items, _ => by rw [unhashable?]
  | null, _ | bool _, _ | int _, _ | float _, _ | nan _, _ | text _, _ | bytes _, _ | member _, _
  | stream _ _, _ | fault _ _ _ _, _ => by rw [unhashable?]
  | view _, h | record _ _, h | list _ _, h | set _ _, h | map _ _, h | buffer _ _, h
  | object _ _ _, h => by simpa [isKey] using h

theorem unhashableAmong?_of_areKeys : ∀ {vs : List Value}, areKeys vs → unhashableAmong? vs = none
  | [], _ => by rw [unhashableAmong?]
  | v :: vs, h => by
    simp only [areKeys, Bool.and_eq_true] at h
    rw [unhashableAmong?, unhashable?_of_isKey h.1]
    exact unhashableAmong?_of_areKeys h.2

end

theorem unhashableAmong?_eq_none_iff {vs : List Value} :
    unhashableAmong? vs = none ↔ ∀ v ∈ vs, v.unhashable? = none := by
  induction vs with
  | nil => simp [unhashableAmong?]
  | cons v vs ih =>
    rw [unhashableAmong?]
    cases h : v.unhashable? <;> simp [h, ih]

/-! ### Putting one after the other -/

variable {α : Type} {f : List α → α → Except Fault (List α)}

/-- What every step asks for holds of everything that was put. -/
theorem forall_of_foldlM_eq_ok {p : α → Prop} (hstep : ∀ as a as', f as a = .ok as' → p a)
    {start as as' : List α} (h : as.foldlM f start = .ok as') : ∀ a ∈ as, p a := by
  induction as generalizing start with
  | nil => simp
  | cons a as ih =>
    rw [List.foldlM_cons, Except.bind_eq_ok] at h
    obtain ⟨next, hnext, h⟩ := h
    rw [List.forall_mem_cons]
    exact ⟨hstep start a next hnext, ih h⟩

/-- If a step adds what has a new key at the end, then nothing is lost or moved as long as no key is
alike one before it. -/
theorem foldlM_eq_ok {k : α → Value}
    (hstep : ∀ as a, (k a).unhashable? = none → (∀ b ∈ as, alike (k a) (k b) = false) →
      f as a = .ok (as ++ [a]))
    {as : List α} (hkeys : ∀ a ∈ as, (k a).unhashable? = none) (halike : noneAlike (as.map k))
    {start : List α} (hstart : ∀ b ∈ start, ∀ a ∈ as, alike (k a) (k b) = false) :
    as.foldlM f start = .ok (start ++ as) := by
  induction as generalizing start with
  | nil => simp [Except.pure_eq_ok]
  | cons a as ih =>
    rw [List.forall_mem_cons] at hkeys
    simp only [List.map_cons, noneAlike, Bool.and_eq_true, List.all_eq_true, List.mem_map,
      Bool.not_eq_true', forall_exists_index, and_imp, forall_apply_eq_imp_iff₂] at halike
    have hnext : f start a = .ok (start ++ [a]) :=
      hstep start a hkeys.1 fun b hb => hstart b hb a (by simp)
    -- what comes later is new to what was there before and to what was just put
    have hrest : ∀ b ∈ start ++ [a], ∀ c ∈ as, alike (k c) (k b) = false := by
      intro b hb c hc
      rcases List.mem_append.1 hb with hb | hb
      · exact hstart b hb c (List.mem_cons_of_mem _ hc)
      · rw [List.mem_singleton.1 hb]
        exact halike.1 c hc
    rw [List.foldlM_cons, Except.bind_eq_ok]
    exact ⟨_, hnext, by simpa using ih hkeys.2 halike.2 hrest⟩

/-! ### Sets -/

theorem insert_eq_ok_iff {v : Value} {items items' : List Value} :
    insert v items = .ok items' ↔
      v.unhashable? = none ∧ (if items.any (alike v) then items else items ++ [v]) = items' := by
  unfold insert
  cases v.unhashable? <;> simp

theorem hashable_of_distinct {vs items : List Value} (h : distinct vs = .ok items) :
    ∀ v ∈ vs, v.unhashable? = none :=
  forall_of_foldlM_eq_ok (f := fun items v => insert v items)
    (fun _ _ _ hinsert => (insert_eq_ok_iff.1 hinsert).1) h

/-- A set that is made anew from its own members. -/
theorem distinct_eq_ok {vs : List Value} (hkeys : ∀ v ∈ vs, v.unhashable? = none)
    (halike : noneAlike vs) : distinct vs = .ok vs := by
  refine foldlM_eq_ok (k := id) (fun items v hv hnew => ?_) hkeys (by simpa using halike) (by simp)
  have hany : items.any (alike v) = false := by
    rw [List.any_eq_false]
    intro a ha
    simpa using hnew a ha
  exact insert_eq_ok_iff.2 ⟨hv, by simp [hany]⟩

/-! ### Mappings -/

theorem put_eq_ok_iff {key value : Value} {es es' : List (Value × Value)} :
    put key value es = .ok es' ↔ key.unhashable? = none ∧ putEntry key value es = es' := by
  unfold put
  cases key.unhashable? <;> simp

theorem hashable_of_entriesOf {pairs es : List (Value × Value)} (h : entriesOf pairs = .ok es) :
    ∀ p ∈ pairs, p.1.unhashable? = none :=
  forall_of_foldlM_eq_ok (f := fun es p => put p.1 p.2 es)
    (p := fun entry => entry.1.unhashable? = none) (fun _ _ _ hput => (put_eq_ok_iff.1 hput).1) h

theorem putEntry_of_new {key value : Value} {es : List (Value × Value)}
    (h : ∀ e ∈ es, alike key e.1 = false) : putEntry key value es = es ++ [(key, value)] := by
  induction es with
  | nil => rfl
  | cons e es ih =>
    rw [List.forall_mem_cons] at h
    simp [putEntry, h.1, ih h.2]

/-- A mapping that is made anew from its own entries. -/
theorem entriesOf_eq_ok {pairs : List (Value × Value)} (hkeys : ∀ p ∈ pairs, p.1.unhashable? = none)
    (halike : noneAlike (pairs.map Prod.fst)) : entriesOf pairs = .ok pairs :=
  foldlM_eq_ok (k := Prod.fst)
    (fun _ _ hp hnew => put_eq_ok_iff.2 ⟨hp, putEntry_of_new hnew⟩) hkeys halike (by simp)

end Value

end CredentialWrites
