import CredentialWrites.Text.Blank
import Mathlib.Data.List.DropRight

/-!
# What trimming leaves

Trimming takes the members of a class of characters from both ends of a text, up to the first
character that is none, and takes nothing from between. What is left is therefore determined by two
things: it has no member of the class at either end, and the text is it with members of the class
around it.

* `Text.IsTrimmed` : there is nothing to take from either end.
* `Text.trimChars_eq_iff` : what trimming leaves.
-/

namespace CredentialWrites

namespace Text

variable {p : Char → Bool} {cs core before after : List Char}

/-- Neither the first nor the last character is a member of the class. -/
structure IsTrimmed (p : Char → Bool) (cs : List Char) : Prop where
  head : ∀ c ∈ cs.head?, p c = false
  last : ∀ c ∈ cs.getLast?, p c = false

theorem isTrimmed_of_forall (h : ∀ c ∈ cs, p c = false) : IsTrimmed p cs :=
  ⟨fun c hc => h c (List.mem_of_head? hc), fun c hc => h c (List.mem_of_getLast? hc)⟩

/-- What stands first in a text and what stands last in another are at the ends of both together. -/
theorem IsTrimmed.append {ds : List Char} (hcs : IsTrimmed p cs) (hds : IsTrimmed p ds)
    (hne : cs ≠ []) (hne' : ds ≠ []) (between : List Char) : IsTrimmed p (cs ++ between ++ ds) := by
  refine ⟨?_, ?_⟩
  · rw [List.append_assoc, List.head?_append_of_ne_nil _ hne]
    exact hcs.head
  · rw [List.getLast?_append_of_ne_nil _ hne']
    exact hds.last

theorem dropWhile_of_head (h : ∀ c ∈ cs.head?, p c = false) : cs.dropWhile p = cs := by
  cases cs with
  | nil => rfl
  | cons c cs => simp [h c rfl]

theorem head_dropWhile (cs : List Char) : ∀ c ∈ (cs.dropWhile p).head?, p c = false := by
  intro c hc
  have hnot := List.head?_dropWhile_not p cs
  rw [Option.mem_def.1 hc] at hnot
  simpa using hnot

theorem trimChars_eq (p : Char → Bool) (cs : List Char) :
    trimChars p cs = (cs.dropWhile p).rdropWhile p :=
  rfl

theorem isTrimmed_trimChars (p : Char → Bool) (cs : List Char) : IsTrimmed p (trimChars p cs) := by
  rw [trimChars_eq]
  constructor
  · -- what is left begins as what the first pass leaves, if anything is left
    intro c hc
    obtain ⟨after, hafter⟩ := List.rdropWhile_prefix p (cs.dropWhile p)
    refine head_dropWhile cs c ?_
    rw [← hafter, List.head?_append, Option.mem_def.1 hc]
    rfl
  · intro c hc
    obtain ⟨hne, rfl⟩ := List.mem_getLast?_eq_getLast hc
    simpa using List.rdropWhile_last_not p (cs.dropWhile p) hne

theorem exists_trimChars (p : Char → Bool) (cs : List Char) :
    ∃ before after, cs = before ++ trimChars p cs ++ after ∧ (∀ c ∈ before, p c = true) ∧
      ∀ c ∈ after, p c = true := by
  refine ⟨cs.takeWhile p, (cs.dropWhile p).rtakeWhile p, ?_, fun c => List.mem_takeWhile_imp,
    fun c => List.mem_rtakeWhile_imp⟩
  rw [trimChars_eq, List.append_assoc, List.rdropWhile_append_rtakeWhile,
    List.takeWhile_append_dropWhile]

theorem trimChars_append (hcore : IsTrimmed p core) (hbefore : ∀ c ∈ before, p c = true)
    (hafter : ∀ c ∈ after, p c = true) : trimChars p (before ++ core ++ after) = core := by
  rw [trimChars_eq, List.append_assoc, List.dropWhile_append_of_pos hbefore]
  by_cases hne : core = []
  · subst hne
    rw [List.nil_append, List.dropWhile_eq_nil_iff.2 hafter]
    rfl
  · have hhead : ∀ c ∈ (core ++ after).head?, p c = false := by
      rw [List.head?_append_of_ne_nil _ hne]
      exact hcore.head
    rw [dropWhile_of_head hhead]
    -- the second pass is the first one, on the text read from its end
    have hlast : ∀ c ∈ core.reverse.head?, p c = false := by
      rw [List.head?_reverse]
      exact hcore.last
    rw [List.rdropWhile, List.reverse_append,
      List.dropWhile_append_of_pos fun c hc => hafter c (List.mem_reverse.1 hc),
      dropWhile_of_head hlast,
      List.reverse_reverse]

/-- **What trimming leaves.** It is the one part of the text that has no member of the class at
either end and nothing but members of the class around it. -/
theorem trimChars_eq_iff :
    trimChars p cs = core ↔
      IsTrimmed p core ∧ ∃ before after, cs = before ++ core ++ after ∧ (∀ c ∈ before, p c = true) ∧
        ∀ c ∈ after, p c = true := by
  constructor
  · rintro rfl
    exact ⟨isTrimmed_trimChars p cs, exists_trimChars p cs⟩
  · rintro ⟨hcore, before, after, rfl, hbefore, hafter⟩
    exact trimChars_append hcore hbefore hafter

/-- Nothing is left of a text of which all characters are members of the class. -/
theorem trimChars_eq_nil_iff : trimChars p cs = [] ↔ ∀ c ∈ cs, p c = true := by
  constructor
  · intro h c hc
    obtain ⟨before, after, hcs, hbefore, hafter⟩ := exists_trimChars p cs
    rw [hcs, h, List.append_nil] at hc
    exact (List.mem_append.1 hc).elim (hbefore c) (hafter c)
  · intro h
    exact trimChars_eq_iff.2 ⟨isTrimmed_of_forall (by simp), cs, [], by simp, h, by simp⟩

end Text

end CredentialWrites
