import CredentialWrites.Proofs.Making
import CredentialWrites.Value.Poke

/-!
# The parts of a value

What is found under a key is a part of the value.

* `Value.mem_of_itemAt`, `Value.exists_mem_of_entryAt` : what is found under a key.
-/

namespace CredentialWrites

namespace Value

/-- What is found at a place is one of the items. -/
theorem mem_of_itemAt {container : String} {use : IndexUse} {vs : List Value} {key w : Value}
    (h : itemAt container use vs key = .ok w) : w ∈ vs := by
  obtain ⟨j, -, h⟩ := Except.bind_eq_ok.1 h
  split at h
  · rename_i v hv
    rw [← Except.pure_eq_ok.1 h]
    exact List.mem_of_getElem? hv
  · cases h

/-- What is found under a key of a mapping is the value of an entry. -/
theorem exists_mem_of_entryAt {es : List (Value × Value)} {key w : Value}
    (h : entryAt es key = .ok w) : ∃ k, (k, w) ∈ es := by
  unfold entryAt at h
  split at h
  · cases h
  · split at h
    · rename_i e he
      cases h
      exact ⟨e.1, List.mem_of_find?_eq_some he⟩
    · obtain ⟨_, -, h⟩ := Except.bind_eq_ok.1 h
      cases h

end Value

end CredentialWrites
