import CredentialWrites.CredentialName
import CredentialWrites.Proofs.Permission.Refusals
import CredentialWrites.Proofs.Text.Trimming
import CredentialWrites.Proofs.Value.Nested

/-!
# Names from segments

A name is made of segments from which the separators around them are taken; those inside a segment
stay. So a name begins with one separator and ends with none, and between its separators stand the
parts of its segments in their order. A name that is given as a segment loses the separator that it
was given, and no other: names can be put together from names, in any grouping of the segments.

* `CredentialName.IsSegment` : what is accepted as a segment.
* `CredentialName.IsPart` : what is left of an accepted segment.
* `CredentialName.ofSegments_flatten` : the grouping of the segments makes no difference.
* `CredentialName.ofSegments_law` : which segments make a name, what name that is, and how names go
  together.
-/

namespace CredentialWrites

namespace CredentialName

variable {v : Value} {vs : List Value} {s : List Char} {ss : List (List Char)} {n : CredentialName}

/-! ### Segments -/

/-- A segment is a text with a character in it that is no separator. -/
def IsSegment (v : Value) : Prop :=
  ∃ w, v.word? = some w ∧ ∃ c ∈ w.text.toList, c ≠ separator

/-- What is left of a text without the separators around it. -/
def stripped? (v : Value) : Option (List Char) :=
  v.word?.map fun w => stripSegment w.text.toList

/-- Why a value is refused as a segment. -/
def segmentRefusal (v : Value) : ArgumentFault :=
  match v.word? with
  | some w => .emptySegment w.text
  | none => Argument.refusal "segment" v

theorem field_segmentRefusal (v : Value) : (segmentRefusal v).field = "segment" := by
  unfold segmentRefusal
  split
  · rfl
  · exact Argument.field_refusal "segment" v

theorem segment_eq_ok_iff : segment v = .ok s ↔ stripped? v = some s ∧ s ≠ [] := by
  simp only [segment, Except.bind_eq_ok, Argument.word_eq_ok_iff, stripped?, Option.map_eq_some_iff]
  constructor
  · rintro ⟨w, hw, h⟩
    split at h
    · cases h
    · rename_i hne
      obtain rfl := Except.pure_eq_ok.1 h
      exact ⟨⟨w, hw, rfl⟩, by simpa using hne⟩
  · rintro ⟨⟨w, hw, rfl⟩, hne⟩
    exact ⟨w, hw, by simp [hne, Except.pure_eq_ok]⟩

theorem stripSegment_eq_nil_iff : stripSegment s = [] ↔ ∀ c ∈ s, c = separator := by
  simp [stripSegment, Text.trimChars_eq_nil_iff]

theorem exists_segment_iff : (∃ s, segment v = .ok s) ↔ IsSegment v := by
  simp only [segment_eq_ok_iff, stripped?, Option.map_eq_some_iff, IsSegment]
  constructor
  · rintro ⟨_, ⟨w, hw, rfl⟩, hne⟩
    rw [Ne, stripSegment_eq_nil_iff] at hne
    exact ⟨w, hw, by simpa using hne⟩
  · rintro ⟨w, hw, hc⟩
    refine ⟨_, ⟨w, hw, rfl⟩, ?_⟩
    rw [Ne, stripSegment_eq_nil_iff]
    simpa using hc

theorem segment_eq_error (h : ¬ IsSegment v) :
    segment v = .error (.argument (segmentRefusal v)) := by
  unfold segment segmentRefusal
  cases hw : v.word? with
  | none =>
    rw [Argument.word_eq_error hw]
    rfl
  | some w =>
    have hnil : stripSegment w.text.toList = [] := by
      rw [stripSegment_eq_nil_iff]
      intro c hc
      by_contra hne
      exact h ⟨w, hw, c, hc, hne⟩
    rw [Argument.word_eq_ok_iff.2 hw]
    simp [hnil, bind, Except.bind]

/-- What is left of an accepted segment: something that neither begins nor ends with a separator. -/
structure IsPart (s : List Char) : Prop where
  ne_nil : s ≠ []
  trimmed : Text.IsTrimmed (· = separator) s

theorem isPart_of_segment (h : segment v = .ok s) : IsPart s := by
  obtain ⟨hs, hne⟩ := segment_eq_ok_iff.1 h
  obtain ⟨w, -, rfl⟩ := Option.map_eq_some_iff.1 hs
  exact ⟨hne, Text.isTrimmed_trimChars _ _⟩

theorem IsPart.head_ne {c : Char} (h : IsPart s) (hc : s.head? = some c) : c ≠ separator := by
  simpa using h.trimmed.head c hc

theorem IsPart.getLast_ne {c : Char} (h : IsPart s) (hc : s.getLast? = some c) : c ≠ separator := by
  simpa using h.trimmed.last c hc

/-- Two parts with a separator between them are again such a part. -/
theorem IsPart.append {t : List Char} (hs : IsPart s) (ht : IsPart t) :
    IsPart (s ++ separator :: t) := by
  refine ⟨by simp, ?_⟩
  have h := hs.trimmed.append ht.trimmed hs.ne_nil ht.ne_nil [separator]
  simpa using h

/-! ### Paths -/

@[simp] theorem path_nil : path [] = [] :=
  rfl

@[simp] theorem path_cons (s : List Char) (ss : List (List Char)) :
    path (s :: ss) = separator :: s ++ path ss :=
  rfl

theorem path_append (ss ts : List (List Char)) : path (ss ++ ts) = path ss ++ path ts := by
  simp [path]

/-- A path is a separator and one part. -/
theorem exists_path (hss : ∀ s ∈ ss, IsPart s) (hne : ss ≠ []) :
    ∃ s, path ss = separator :: s ∧ IsPart s := by
  induction ss with
  | nil => exact absurd rfl hne
  | cons s ss ih =>
    have hs : IsPart s := hss s List.mem_cons_self
    by_cases hnil : ss = []
    · exact ⟨s, by simp [hnil], hs⟩
    · obtain ⟨t, hpath, ht⟩ := ih (fun s h => hss s (List.mem_cons_of_mem _ h)) hnil
      exact ⟨s ++ separator :: t, by simp [hpath], hs.append ht⟩

/-- A path that is given as a segment loses the separator in front of it, and nothing else. -/
theorem stripSegment_path (hss : ∀ s ∈ ss, IsPart s) (hne : ss ≠ []) :
    IsPart (stripSegment (path ss)) ∧ path [stripSegment (path ss)] = path ss := by
  obtain ⟨s, hpath, hs⟩ := exists_path hss hne
  have hstrip : stripSegment (path ss) = s :=
    Text.trimChars_eq_iff.2 ⟨hs.trimmed, [separator], [], by simp [hpath], by simp, by simp⟩
  rw [hstrip]
  exact ⟨hs, by simp [hpath]⟩

/-- The parts between the separators of a path are those of its segments. -/
theorem splitOn_path (ss : List (List Char)) :
    (path ss).splitOn separator = [] :: ss.flatMap (·.splitOn separator) := by
  suffices h : ∀ s : List Char, (s ++ path ss).splitOn separator =
      s.splitOn separator ++ ss.flatMap (·.splitOn separator) from by simpa using h []
  induction ss with
  | nil => simp
  | cons t ts ih =>
    intro s
    rw [path_cons, List.cons_append, List.splitOn_append_cons_self, ih t, List.flatMap_cons]

/-! ### Names -/

/-- The name with the given parts. -/
def ofParts (ss : List (List Char)) : CredentialName :=
  ⟨.plain (String.ofList (path ss))⟩

theorem toList_ofParts (ss : List (List Char)) : (ofParts ss).word.text.toList = path ss :=
  String.toList_ofList

/-- Some values leave some parts as segments. -/
def Leave (vs : List Value) (ss : List (List Char)) : Prop :=
  List.Forall₂ (fun v s => segment v = .ok s) vs ss

theorem Leave.isPart (h : Leave vs ss) : ∀ s ∈ ss, IsPart s :=
  ((List.forall₂_and_left ss vs).1 (h.flip.imp fun _ _ hs => ⟨isPart_of_segment hs, hs⟩)).1

theorem ofSegments_eq_ok_iff :
    ofSegments vs = .ok n ↔ vs ≠ [] ∧ ∃ ss, Leave vs ss ∧ ofParts ss = n := by
  cases vs with
  | nil => simp [ofSegments]
  | cons v vs =>
    simp only [ofSegments, List.isEmpty_cons, Bool.false_eq_true, if_false, Except.bind_eq_ok,
      Except.pure_eq_ok, Except.mapM_eq_ok_iff_forall₂, ne_eq, reduceCtorEq,
      not_false_eq_true, true_and,
      Leave, ofParts]

/-- A name has a part for each of its segments, of which there is at least one. -/
theorem exists_parts (h : ofSegments vs = .ok n) :
    ∃ ss, Leave vs ss ∧ ofParts ss = n ∧ ss ≠ [] := by
  obtain ⟨hne, ss, hss, rfl⟩ := ofSegments_eq_ok_iff.1 h
  refine ⟨ss, hss, rfl, ?_⟩
  rintro rfl
  exact hne (List.forall₂_nil_right_iff.1 hss)

theorem exists_ofSegments_iff : (∃ n, ofSegments vs = .ok n) ↔ vs ≠ [] ∧ ∀ v ∈ vs, IsSegment v := by
  simp only [ofSegments_eq_ok_iff, ← exists_segment_iff]
  constructor
  · rintro ⟨_, hne, ss, hss, -⟩
    exact ⟨hne, ((List.forall₂_and_left vs ss).1 (hss.imp fun _ s h => ⟨⟨s, h⟩, h⟩)).1⟩
  · rintro ⟨hne, hvs⟩
    obtain ⟨ss, hss⟩ := exists_forall₂ hvs
    exact ⟨_, hne, ss, hss, rfl⟩

/-- The first value that is no segment decides why no name is made. -/
theorem ofSegments_eq_error {before after : List Value} (hbefore : ∀ u ∈ before, IsSegment u)
    (hv : ¬ IsSegment v) :
    ofSegments (before ++ v :: after) = .error (.argument (segmentRefusal v)) := by
  have hnames : (before ++ v :: after).mapM segment = .error (.argument (segmentRefusal v)) :=
    Except.mapM_eq_error (fun u hu => exists_segment_iff.2 (hbefore u hu)) (segment_eq_error hv)
  simp [ofSegments, hnames, bind, Except.bind]

/-! ### Names of names -/

/-- As a segment, a name stands for all its segments. -/
theorem exists_segment_of_name (h : ofSegments vs = .ok n) :
    ∃ ss s, Leave vs ss ∧ segment (.ofWord n.word) = .ok s ∧ path [s] = path ss := by
  obtain ⟨ss, hss, rfl, hne⟩ := exists_parts h
  obtain ⟨hpart, hpath⟩ := stripSegment_path hss.isPart hne
  refine ⟨ss, stripSegment (path ss), hss, segment_eq_ok_iff.2 ⟨?_, hpart.ne_nil⟩, hpath⟩
  rw [stripped?, Value.word?_ofWord, Option.map_some, toList_ofParts]

/-- **The grouping of segments makes no difference.** The name of all segments of some groups is the
name that is made of the names of the groups. -/
theorem ofSegments_flatten (groups : List (List Value)) {names : List CredentialName}
    (hne : groups ≠ []) (h : List.Forall₂ (fun vs n => ofSegments vs = .ok n) groups names) :
    ∃ n, ofSegments groups.flatten = .ok n ∧
      ofSegments (names.map fun m => .ofWord m.word) = .ok n := by
  -- group by group, one part stands in the path for the parts of the group
  obtain ⟨ss, ts, hss, hts, hpath⟩ : ∃ ss ts, Leave groups.flatten ss ∧
      Leave (names.map fun m => .ofWord m.word) ts ∧ path ss = path ts := by
    clear hne
    induction h with
    | nil => exact ⟨[], [], .nil, .nil, rfl⟩
    | cons hvs _ ih =>
      obtain ⟨ss, ts, hss, hts, hpath⟩ := ih
      obtain ⟨ss', t, hss', ht, hpath'⟩ := exists_segment_of_name hvs
      refine ⟨ss' ++ ss, t :: ts, ?_, .cons ht hts, ?_⟩
      · rw [List.flatten_cons]
        exact List.rel_append hss' hss
      · rw [path_append, hpath, ← hpath', ← path_append, List.singleton_append]
  obtain ⟨vs, groups, rfl⟩ := List.exists_cons_of_ne_nil hne
  obtain _ | ⟨hvs, -⟩ := h
  have hflat : (vs :: groups).flatten ≠ [] := by
    rw [List.flatten_cons]
    exact List.append_ne_nil_of_left_ne_nil (ofSegments_eq_ok_iff.1 hvs).1 _
  exact ⟨ofParts ss, ofSegments_eq_ok_iff.2 ⟨hflat, ss, hss, rfl⟩,
    ofSegments_eq_ok_iff.2 ⟨by simp, ts, hts, by rw [ofParts, ofParts, hpath]⟩⟩

/-- A name that is made of one name is that name. -/
theorem ofSegments_name (h : ofSegments vs = .ok n) : ofSegments [.ofWord n.word] = .ok n := by
  obtain ⟨m, hflat, hname⟩ := ofSegments_flatten [vs] (by simp) (.cons h .nil)
  rw [List.flatten_singleton, h] at hflat
  obtain rfl := Except.ok.inj hflat
  exact hname

/-- **Names from segments.** A name is made exactly of one or more texts that hold something else
than separators, and otherwise the first value that is no such text decides the refusal. The name
begins with one separator and does not end with one, and between its separators stand the parts
between those of its segments, in their order. Segments can be put together in any groups: the name
of two names, of one name or of any number of them is the name of all their segments. -/
theorem ofSegments_law :
    (∀ vs, (∃ n, ofSegments vs = .ok n) ↔ vs ≠ [] ∧ ∀ v ∈ vs, IsSegment v) ∧
      ofSegments [] = .error (.argument .noSegments) ∧
      (∀ before v after, (∀ u ∈ before, IsSegment u) → ¬ IsSegment v →
        ofSegments (before ++ v :: after) = .error (.argument (segmentRefusal v)) ∧
          (segmentRefusal v).field = "segment") ∧
      (∀ vs n, ofSegments vs = .ok n →
        (∃ c cs, n.word.text.toList = separator :: c :: cs ∧ c ≠ separator) ∧
          n.word.text.toList.getLast? ≠ some separator ∧
          ∃ segments, List.Forall₂ (fun v s => stripped? v = some s) vs segments ∧
            n.word.text.toList.splitOn separator = [] :: segments.flatMap (·.splitOn separator)) ∧
      (∀ xs ys m n, ofSegments xs = .ok m → ofSegments ys = .ok n →
        ∃ k, ofSegments (xs ++ ys) = .ok k ∧ ofSegments [.ofWord m.word, .ofWord n.word] = .ok k) ∧
      (∀ xs m, ofSegments xs = .ok m → ofSegments [.ofWord m.word] = .ok m) ∧
      ∀ groups names, groups ≠ [] → List.Forall₂ (fun vs n => ofSegments vs = .ok n) groups names →
        ∃ n, ofSegments groups.flatten = .ok n ∧
          ofSegments (names.map fun m => .ofWord m.word) = .ok n := by
  refine ⟨fun vs => exists_ofSegments_iff, rfl,
    fun before v after hbefore hv => ⟨ofSegments_eq_error hbefore hv, field_segmentRefusal v⟩, ?_,
    ?_,
    fun xs m h => ofSegments_name h, fun groups names hne h => ofSegments_flatten groups hne h⟩
  · intro vs n h
    obtain ⟨ss, hss, rfl, hne⟩ := exists_parts h
    obtain ⟨s, hpath, hs⟩ := exists_path hss.isPart hne
    obtain ⟨c, cs, rfl⟩ := List.exists_cons_of_ne_nil hs.ne_nil
    rw [toList_ofParts]
    refine ⟨⟨c, cs, hpath, hs.head_ne rfl⟩, ?_, ss, hss.imp fun _ _ h => (segment_eq_ok_iff.1 h).1,
      splitOn_path ss⟩
    rw [hpath, List.getLast?_cons_cons]
    exact fun hlast => hs.getLast_ne hlast rfl
  · intro xs ys m n hm hn
    simpa using ofSegments_flatten [xs, ys] (by simp) (.cons hm (.cons hn .nil))

/-- Separators inside a segment stay, two in a row too; those around it go. -/
theorem ofSegments_law_of_slashes :
    (∃ m n k, ofSegments [.text "/a//b/", .text "c"] = .ok m ∧ ofSegments [.text "//d"] = .ok n ∧
      ofSegments [.text "/a//b/", .text "c", .text "//d"] = .ok k ∧
      ofSegments [.ofWord m.word, .ofWord n.word] = .ok k ∧ k.word.text = "/a//b/c/d") ∧
      ofSegments [.text "a", .text "//", .null] = .error (.argument (.emptySegment "//")) := by
  obtain ⟨-, -, hrefused, -, htwo, -, -⟩ := ofSegments_law
  have hm : ofSegments [.text "/a//b/", .text "c"] = .ok ⟨.plain "/a//b/c"⟩ := by cbv
  have hn : ofSegments [.text "//d"] = .ok ⟨.plain "/d"⟩ := by cbv
  obtain ⟨k, hall, hnames⟩ := htwo _ _ _ _ hm hn
  have hk : ofSegments [.text "/a//b/", .text "c", .text "//d"] = .ok ⟨.plain "/a//b/c/d"⟩ := by cbv
  obtain rfl := Except.ok.inj (hall.symm.trans hk)
  refine ⟨⟨_, _, _, hm, hn, hall, hnames, rfl⟩, ?_⟩
  refine (hrefused [.text "a"] (.text "//") [.null] ?_ ?_).1
  · rintro u hu
    rw [List.mem_singleton] at hu
    exact ⟨.plain "a", by rw [hu]; rfl, 'a', List.mem_cons_self, by decide⟩
  · rintro ⟨w, hw, c, hc, hne⟩
    obtain rfl := Option.some.inj hw
    have hslashes : "//".toList = List.replicate 2 separator := rfl
    exact hne (List.eq_of_mem_replicate (hslashes ▸ hc))

end CredentialName

end CredentialWrites
