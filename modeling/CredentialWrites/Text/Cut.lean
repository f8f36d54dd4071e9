/-!
# Cutting at a character

A sequence of characters is cut at the first occurrence of one of them; the parts before and after
it are what is left.

* `Text.eq_of_cut?` : the parts with the character between them are the sequence.
* `Text.cut?_append` : a part without the character is what stands before the first one.
* `Text.exists_cut_of_mem` : a sequence that holds the character can be cut.
-/

namespace CredentialWrites

namespace Text

/-- The parts before and after the first occurrence of a character. -/
def cut? (c : Char) : List Char → Option (List Char × List Char)
  | [] => none
  | d :: ds => if d = c then some ([], ds) else (cut? c ds).map fun p => (d :: p.1, p.2)

theorem cut?_eq_none_iff {c : Char} {cs : List Char} : cut? c cs = none ↔ c ∉ cs := by
  induction cs with
  | nil => simp [cut?]
  | cons d ds ih =>
    by_cases h : d = c
    · simp [cut?, h]
    · simp [cut?, h, ih, Ne.symm h]

theorem eq_of_cut? {c : Char} {cs before after : List Char} (h : cut? c cs = some (before, after)) :
    cs = before ++ c :: after ∧ c ∉ before := by
  induction cs generalizing before with
  | nil => simp [cut?] at h
  | cons d ds ih =>
    by_cases hd : d = c
    · simp only [cut?, hd, if_true, Option.some.injEq, Prod.mk.injEq] at h
      simp [← h.1, ← h.2, hd]
    · simp only [cut?, hd, if_false, Option.map_eq_some_iff] at h
      obtain ⟨⟨b, a⟩, hp, hq⟩ := h
      obtain ⟨rfl, rfl⟩ := Prod.mk.inj hq
      obtain ⟨h₁, h₂⟩ := ih hp
      simp [h₁, h₂, Ne.symm hd]

theorem cut?_append {c : Char} {before after : List Char} (h : c ∉ before) :
    cut? c (before ++ c :: after) = some (before, after) := by
  induction before with
  | nil => simp [cut?]
  | cons d ds ih =>
    simp only [List.mem_cons, not_or] at h
    simp [cut?, Ne.symm h.1, ih h.2]

/-- There is one way to cut at the first occurrence. -/
theorem eq_of_append_eq {c : Char} {before before' after after' : List Char} (h : c ∉ before)
    (h' : c ∉ before') (heq : before ++ c :: after = before' ++ c :: after') :
    before = before' ∧ after = after' := by
  have hcut := congrArg (cut? c) heq
  rwa [cut?_append h, cut?_append h', Option.some.injEq, Prod.mk.injEq] at hcut

theorem exists_cut_of_mem {c : Char} {cs : List Char} (h : c ∈ cs) :
    ∃ before after, cs = before ++ c :: after ∧ c ∉ before := by
  obtain ⟨p, hp⟩ := Option.ne_none_iff_exists'.1 (fun hnone => cut?_eq_none_iff.1 hnone h)
  exact ⟨p.1, p.2, eq_of_cut? hp⟩

end Text

end CredentialWrites
