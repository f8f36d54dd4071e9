import CredentialWrites.Proofs.Making
import CredentialWrites.Value.Snapshot

/-!
# Why a value cannot be frozen

Freezing fails for one reason only: some part of the value, at whatever depth, has no copy.

* `Value.fails_freezeEntries` : the faults of freezing a mapping.
-/

namespace CredentialWrites

namespace Value

open Making

mutual

theorem eq_of_uncopyable? : ∀ {v : Value} {f : Fault}, uncopyable? v = some f →
    ∃ kind, f = .uncopyable kind
  | view _, f, h | stream _ _, f, h => by
    rw [uncopyable?] at h
    exact ⟨_, (Option.some.inj h).symm⟩
  | tuple items, f, h | frozenSet items, f, h | record _ items, f, h | list _ items, f, h
  | set _ items, f, h => by
    rw [uncopyable?] at h
    exact eq_of_uncopyableAmong? h
  | map _ es, f, h => by
    rw [uncopyable?] at h
    exact eq_of_uncopyableEntry? h
  | fault _ _ args attrs, f, h => by
    rw [uncopyable?] at h
    -- the arguments are copied before the attributes
    split at h
    · rename_i hargs
      obtain rfl := Option.some.inj h
      exact eq_of_uncopyableAmong? hargs
    · exact eq_of_uncopyableAttr? h
  | object _ _ attrs, f, h => by
    rw [uncopyable?] at h
    exact eq_of_uncopyableAttr? h
  | null, f, h | bool _, f, h | int _, f, h | float _, f, h | nan _, f, h | text _, f, h
  | bytes _, f, h | member _, f, h | buffer _ _, f, h => by cases h

theorem eq_of_uncopyableAmong? : ∀ {vs : List Value} {f : Fault}, uncopyableAmong? vs = some f →
    ∃ kind, f = .uncopyable kind
  | [], f, h => by cases h
  | v :: vs, f, h => by
    rw [uncopyableAmong?] at h
    split at h
    · rename_i hv
      obtain rfl := Option.some.inj h
      exact eq_of_uncopyable? hv
    · exact eq_of_uncopyableAmong? h

theorem eq_of_uncopyableEntry? : ∀ {es : List (Value × Value)} {f : Fault},
    uncopyableEntry? es = some f → ∃ kind, f = .uncopyable kind
  | [], f, h => by cases h
  | (k, v) :: es, f, h => by
    unfold uncopyableEntry? at h
    split at h
    · rename_i hv
      obtain rfl := Option.some.inj h
      exact eq_of_uncopyable? hv
    · -- a key is copied after its value
      split at h
      · rename_i hk
        obtain rfl := Option.some.inj h
        exact eq_of_uncopyable? hk
      · exact eq_of_uncopyableEntry? h

theorem eq_of_uncopyableAttr? : ∀ {attrs : List (String × Value)} {f : Fault},
    uncopyableAttr? attrs = some f → ∃ kind, f = .uncopyable kind
  | [], f, h => by cases h
  | (_, v) :: attrs, f, h => by
    rw [uncopyableAttr?] at h
    split at h
    · rename_i hv
      obtain rfl := Option.some.inj h
      exact eq_of_uncopyable? hv
    · exact eq_of_uncopyableAttr? h

end

theorem fails_copy {v : Value} {s t : State} {f : Fault} (h : (copy v).Fails s f t) :
    ∃ kind, f = .uncopyable kind := by
  unfold copy at h
  split at h
  · rename_i hv
    obtain ⟨rfl, -⟩ := fails_fail.1 h
    exact eq_of_uncopyable? hv
  · rcases fails_bind.1 h with h | ⟨now, u, -, h⟩
    · exact absurd h not_fails_tick
    · exact absurd h not_fails_pure

mutual

theorem fails_freeze : ∀ {v : Value} {s t : State} {f : Fault}, (freeze v).Fails s f t →
    ∃ kind, f = .uncopyable kind
  | view es, s, t, f, h | map _ es, s, t, f, h => by
    rw [freeze] at h
    rcases fails_bind.1 h with h | ⟨es', u, -, h⟩
    · exact fails_freezeEntries h
    · exact absurd h not_fails_pure
  | tuple items, s, t, f, h | list _ items, s, t, f, h | set _ items, s, t, f, h
  | frozenSet items, s, t, f, h => by
    rw [freeze] at h
    rcases fails_bind.1 h with h | ⟨items', u, -, h⟩
    · exact fails_freezeAll h
    · exact absurd h not_fails_pure
  | null, s, t, f, h | bool _, s, t, f, h | int _, s, t, f, h | float _, s, t, f, h
  | nan _, s, t, f, h | text _, s, t, f, h | bytes _, s, t, f, h | member _, s, t, f, h
  | record _ _, s, t, f, h | buffer _ _, s, t, f, h | stream _ _, s, t, f, h
  | fault _ _ _ _, s, t, f, h | object _ _ _, s, t, f, h => by
    simp only [freeze] at h
    exact fails_copy h

theorem fails_freezeAll : ∀ {vs : List Value} {s t : State} {f : Fault},
    (freezeAll vs).Fails s f t →
    ∃ kind, f = .uncopyable kind
  | [], s, t, f, h => absurd h not_fails_pure
  | v :: vs, s, t, f, h => by
    rw [freezeAll] at h
    rcases fails_bind.1 h with h | ⟨w, u, -, h⟩
    · exact fails_freeze h
    · rcases fails_bind.1 h with h | ⟨ws, u, -, h⟩
      · exact fails_freezeAll h
      · exact absurd h not_fails_pure

/-- Freezing a mapping fails only if a part of it has no copy. -/
theorem fails_freezeEntries : ∀ {es : List (Value × Value)} {s t : State} {f : Fault},
    (freezeEntries es).Fails s f t → ∃ kind, f = .uncopyable kind
  | [], s, t, f, h => absurd h not_fails_pure
  | (k, v) :: es, s, t, f, h => by
    rw [freezeEntries] at h
    -- keys are not frozen, so that only the values can fail
    rcases fails_bind.1 h with h | ⟨w, u, -, h⟩
    · exact fails_freeze h
    · rcases fails_bind.1 h with h | ⟨es', u, -, h⟩
      · exact fails_freezeEntries h
      · exact absurd h not_fails_pure

end

end Value

end CredentialWrites
