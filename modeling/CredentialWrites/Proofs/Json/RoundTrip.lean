import CredentialWrites.Proofs.Json.Number
import CredentialWrites.Proofs.Json.Quoted

/-!
# Reading documents back

A document written in a style is read back as the same document, whatever stands around it. The
style may put blanks behind its marks and indent its items; the reader skips them. A number that is
not a whole one is read back if it is written as the standard has it, and a text with half of a
character in it if no two halves of a character meet there.

* `JsonStyle.Standard` : the marks of a style are those of the standard, with blanks behind them.
* `Json.Standard` : the numbers and the halves of characters in a document are those of the
  standard.
* `Json.value?_chars` : a document is read back before anything that ends a number.
* `Json.read?_write` : a document is read back from its text.
-/

namespace CredentialWrites

/-- The marks of a style are those of the standard, with blanks behind them. -/
structure JsonStyle.Standard (style : JsonStyle) : Prop where
  /-- A comma and blanks stand between items. -/
  separator : ∃ blanks, style.separator = ',' :: blanks ∧ ∀ c ∈ blanks, Json.isBlank c = true
  /-- A colon and blanks stand behind the name of a member. -/
  colon : ∃ blanks, style.colon = ':' :: blanks ∧ ∀ c ∈ blanks, Json.isBlank c = true

namespace JsonStyle

theorem standard_compact : compact.Standard :=
  ⟨⟨[], rfl, by simp⟩, ⟨[], rfl, by simp⟩⟩

theorem standard_indented (n : Nat) : (indented n).Standard :=
  ⟨⟨[], rfl, by simp⟩, ⟨[' '], rfl, by simp [Json.isBlank]⟩⟩

theorem standard_log : log.Standard :=
  ⟨⟨[' '], rfl, by simp [Json.isBlank]⟩, ⟨[' '], rfl, by simp [Json.isBlank]⟩⟩

/-- A new line and its indentation are blanks. -/
theorem isBlank_of_mem_lineBreak {style : JsonStyle} {level : Nat} :
    ∀ c ∈ style.lineBreak level, Json.isBlank c = true := by
  intro c hc
  unfold lineBreak at hc
  split at hc
  · cases hc
  · rcases List.mem_cons.1 hc with rfl | hc
    · rfl
    · rw [List.eq_of_mem_replicate hc]
      rfl

end JsonStyle

namespace Json

mutual

/-- The numbers of a document are written as the standard has them, and where a half of a character
stands alone, it does. -/
def Standard : Json → Prop
  | number written => number? written.toList = some (number written, [])
  | broken ps => Text.Unpaired ps ∧ Text.ofPoints? ps = none
  | array items => ItemsStandard items
  | object members => MembersStandard members
  | _ => True

/-- `Standard` for every item. -/
def ItemsStandard : List Json → Prop
  | [] => True
  | item :: rest => item.Standard ∧ ItemsStandard rest

/-- `Standard` for the value of every member. -/
def MembersStandard : List (String × Json) → Prop
  | [] => True
  | (_, value) :: rest => value.Standard ∧ MembersStandard rest

end

theorem itemsStandard_iff {items : List Json} :
    ItemsStandard items ↔ ∀ item ∈ items, item.Standard := by
  induction items with
  | nil => simp [ItemsStandard]
  | cons item rest ih => simp [ItemsStandard, ih]

theorem membersStandard_iff {members : List (String × Json)} :
    MembersStandard members ↔ ∀ m ∈ members, m.2.Standard := by
  induction members with
  | nil => simp [MembersStandard]
  | cons m members ih => rw [MembersStandard, ih, List.forall_mem_cons]

/-- Code points are a text that can be read back if no two halves meet. -/
theorem standard_ofPoints {ps : List CodePoint} (h : Text.Unpaired ps) :
    (ofPoints ps).Standard := by
  cases hps : Text.ofPoints? ps with
  | none =>
    rw [ofPoints_eq_broken hps, Standard]
    exact ⟨h, hps⟩
  | some s =>
    rw [ofPoints, hps]
    trivial

/-! ### Blanks -/

section Blanks

variable {blanks : List Char} (h : ∀ c ∈ blanks, isBlank c = true)

include h

theorem skipBlanks_append (cs : List Char) : skipBlanks (blanks ++ cs) = skipBlanks cs :=
  List.dropWhile_append_of_pos h

theorem value?_blanks (fuel : Nat) (cs : List Char) :
    value? fuel (blanks ++ cs) = value? fuel cs := by
  cases fuel with
  | zero => rfl
  | succ fuel => rw [value?, value?, skipBlanks_append h]

theorem items?_blanks (fuel : Nat) (cs : List Char) :
    items? fuel (blanks ++ cs) = items? fuel cs := by
  cases fuel with
  | zero => rfl
  | succ fuel => rw [items?, items?, value?_blanks h]

theorem members?_blanks (fuel : Nat) (cs : List Char) :
    members? fuel (blanks ++ cs) = members? fuel cs := by
  cases fuel with
  | zero => rfl
  | succ fuel => rw [members?, members?, skipBlanks_append h]

end Blanks

theorem skipBlanks_cons {c : Char} (h : isBlank c = false) (cs : List Char) :
    skipBlanks (c :: cs) = c :: cs := by
  simp [skipBlanks, h]

/-! ### How documents start -/

/-- The text starts with a character that is no blank and closes no array. -/
def Opens (cs : List Char) : Prop :=
  ∃ c tail, cs = c :: tail ∧ isBlank c = false ∧ c ≠ ']'

theorem Opens.append {cs : List Char} (h : Opens cs) (rest : List Char) : Opens (cs ++ rest) := by
  obtain ⟨c, tail, rfl, hc⟩ := h
  exact ⟨c, tail ++ rest, rfl, hc⟩

theorem Opens.length_pos {cs : List Char} (h : Opens cs) : 0 < cs.length := by
  obtain ⟨c, tail, rfl, -⟩ := h
  exact Nat.succ_pos _

/-- A number starts with a digit or a minus, and so with no blank. -/
theorem opens_of_number? {j : Json} {cs r : List Char}
    (h : number? cs = some (j, r)) : Opens cs := by
  obtain ⟨c, tail, rfl, hc⟩ := head_of_number? h
  refine ⟨c, tail, rfl, ?_, ?_⟩
  · rcases hc with hc | rfl
    · simp only [isBlank, Bool.or_eq_false_iff, decide_eq_false_iff_not]
      refine ⟨⟨⟨?_, ?_⟩, ?_⟩, ?_⟩ <;> (rintro rfl; cases hc)
    · rfl
  · rintro rfl
    rcases hc with hc | hc <;> cases hc

theorem opens_chars (style : JsonStyle) (level : Nat) {j : Json} (h : j.Standard) :
    Opens (j.chars style level) := by
  cases j with
  | null => exact ⟨_, _, rfl, rfl, by decide⟩
  | bool b => cases b <;> exact ⟨_, _, rfl, rfl, by decide⟩
  | int i =>
    rw [chars]
    exact opens_of_number? (number?_int i)
  | number written =>
    rw [Standard] at h
    rw [chars]
    exact opens_of_number? h
  | text s => exact ⟨_, _, rfl, rfl, by decide⟩
  | broken ps => exact ⟨_, _, rfl, rfl, by decide⟩
  | array items => cases items <;> exact ⟨_, _, rfl, rfl, by decide⟩
  | object members => cases members <;> exact ⟨_, _, rfl, rfl, by decide⟩

/-! ### Shapes of documents -/

variable {style : JsonStyle} {fuel : Nat} {rest : List Char}

/-- What starts as a number is read as one. -/
theorem value?_number {j : Json} {cs r : List Char} (h : number? cs = some (j, r)) :
    value? (fuel + 1) cs = some (j, r) := by
  have hblank := opens_of_number? h
  obtain ⟨c, tail, rfl, hc⟩ := head_of_number? h
  obtain ⟨_, _, heq, hblank, -⟩ := hblank
  cases heq
  rw [value?, skipBlanks_cons hblank]
  split
  all_goals first
    | exact h
    | (rename_i heq; obtain ⟨rfl, -⟩ := List.cons.inj heq; rcases hc with hc | hc <;> cases hc)

/-- A text between quotes is read back, if no two halves of a character meet in it. -/
theorem value?_points {ps : List CodePoint} (hps : Text.Unpaired ps)
    (hfuel : (style.points ps).length ≤ fuel + 1) :
    value? (fuel + 1) (style.points ps ++ rest) = some (ofPoints ps, rest) := by
  obtain ⟨cs, heq, hquoted⟩ := quoted?_points style hps rest hfuel
  rw [heq, List.cons_append, value?, skipBlanks_cons rfl]
  simp only [hquoted, Option.map_some]

/-- An array with an item is read as its items are, or refused with them. -/
theorem value?_array {blanks : List Char} (hblanks : ∀ c ∈ blanks, isBlank c = true)
    {cs : List Char} (hopens : Opens cs) :
    value? (fuel + 1) ('[' :: (blanks ++ cs)) = (items? fuel cs).map fun p => (array p.1, p.2) := by
  obtain ⟨c, tail, rfl, hblank, hbracket⟩ := hopens
  rw [value?, skipBlanks_cons rfl]
  simp only [skipBlanks_append hblanks, skipBlanks_cons hblank]
  split
  · rename_i heq
    exact absurd (List.cons.inj heq).1 hbracket
  · rfl

/-- An object with a member is read as its members are, or refused with them. -/
theorem value?_object {blanks : List Char} (hblanks : ∀ c ∈ blanks, isBlank c = true)
    {name : String} {cs : List Char} :
    value? (fuel + 1) ('\x7b' :: (blanks ++ (style.text name ++ cs))) =
      (members? fuel (style.text name ++ cs)).map fun p => (object p.1, p.2) := by
  have hskip : skipBlanks (style.text name ++ cs) = style.text name ++ cs := skipBlanks_cons rfl _
  rw [value?, skipBlanks_cons rfl]
  simp only [skipBlanks_append hblanks, hskip]
  rfl

/-! ### Items and members -/

/-- A document is read back if that is so, and refused otherwise, at every level and before anything
that ends a number. -/
def Reads (style : JsonStyle) (so : Bool) (j : Json) : Prop :=
  ∀ level fuel rest, (j.chars style level).length ≤ fuel → EndsNumber rest →
    value? fuel (j.chars style level ++ rest) = if so then some (j, rest) else none

/-- A document is read back at every level, before anything that ends a number. -/
def ReadsBack (style : JsonStyle) (j : Json) : Prop :=
  ∀ level fuel rest, (j.chars style level).length ≤ fuel → EndsNumber rest →
    value? fuel (j.chars style level ++ rest) = some (j, rest)

theorem reads_true_iff {j : Json} : Reads style true j ↔ ReadsBack style j := by
  simp only [Reads, ReadsBack, if_true]

theorem endsNumber_of_blanks {blanks : List Char} (h : ∀ c ∈ blanks, isBlank c = true)
    (hrest : EndsNumber rest) : EndsNumber (blanks ++ rest) := by
  cases blanks with
  | nil => exact hrest
  | cons c blanks =>
    have hc := h c List.mem_cons_self
    simp only [isBlank, Bool.or_eq_true, decide_eq_true_eq] at hc
    rcases hc with ((rfl | rfl) | rfl) | rfl <;> exact endsNumber_cons rfl (by decide)

section

variable (hstyle : style.Standard)

include hstyle

/-- What stands behind an item ends a number. -/
theorem endsNumber_itemChars (level : Nat) (items : List Json) {d : Char}
    (hd : EndsNumber (d :: rest)) :
    EndsNumber (itemChars style (level + 1) items ++ (style.lineBreak level ++ d :: rest)) := by
  cases items with
  | nil =>
    rw [itemChars, List.nil_append]
    exact endsNumber_of_blanks JsonStyle.isBlank_of_mem_lineBreak hd
  | cons item items =>
    obtain ⟨blanks, hcomma, -⟩ := hstyle.separator
    simp only [itemChars, hcomma, List.cons_append]
    exact endsNumber_cons rfl (by decide)

theorem endsNumber_memberChars (level : Nat) (members : List (String × Json)) {d : Char}
    (hd : EndsNumber (d :: rest)) :
    EndsNumber (memberChars style (level + 1) members ++ (style.lineBreak level ++ d :: rest)) := by
  cases members with
  | nil =>
    rw [memberChars, List.nil_append]
    exact endsNumber_of_blanks JsonStyle.isBlank_of_mem_lineBreak hd
  | cons member members =>
    obtain ⟨blanks, hcomma, -⟩ := hstyle.separator
    simp only [memberChars, hcomma, List.cons_append]
    exact endsNumber_cons rfl (by decide)

omit hstyle in
/-- What is read of an item, and what decides how its array goes on. -/
theorem items?_item {so : Bool} (level : Nat) (item : Json) (hitem : Reads style so item)
    (hfuel : (item.chars style level).length ≤ fuel) (hends : EndsNumber rest) :
    items? (fuel + 1) (item.chars style level ++ rest) =
      if so then
        match skipBlanks rest with
        | ',' :: rest => do
          let (items, rest) ← items? fuel rest
          return (item :: items, rest)
        | ']' :: rest => return ([item], rest)
        | _ => none
      else none := by
  rw [items?, hitem level fuel rest hfuel hends]
  cases so <;> rfl

/-- What is read of a member, and what decides how its object goes on. -/
theorem members?_member {so : Bool} (level : Nat) (name : String) (value : Json)
    (hvalue : Reads style so value)
    (hfuel : (style.text name).length + (value.chars style level).length ≤ fuel)
    (hends : EndsNumber rest) :
    members? (fuel + 1) (style.text name ++ (style.colon ++ (value.chars style level ++ rest))) =
      if so then
        match skipBlanks rest with
        | ',' :: rest => do
          let (members, rest) ← members? fuel rest
          return ((name, value) :: members, rest)
        | '\x7d' :: rest => return ([(name, value)], rest)
        | _ => none
      else none := by
  obtain ⟨blanks, hcolon, hblanks⟩ := hstyle.colon
  obtain ⟨cs, htext, hquoted⟩ := quoted?_points style (Text.unpaired_points name)
    (style.colon ++ (value.chars style level ++ rest))
    (show (style.text name).length ≤ fuel + 1 by omega)
  rw [members?, JsonStyle.text, htext, List.cons_append, skipBlanks_cons rfl]
  simp only [hquoted, Option.bind_eq_bind, Option.bind_some, Text.ofPoints?_points]
  rw [hcolon, List.cons_append, skipBlanks_cons rfl]
  simp only [value?_blanks hblanks, hvalue level fuel rest (by omega) hends]
  cases so <;> rfl

variable {readable : Json → Bool}

/-- Items are read up to the bracket that closes them if each of them is, and refused otherwise. -/
theorem items?_chars (rest : List Char) (level : Nat) (item : Json) (items : List Json)
    (hall : ∀ x ∈ item :: items, Reads style (readable x) x)
    (hfuel : (item.chars style (level + 1)).length + (itemChars style (level + 1) items).length <
      fuel) :
    items? fuel (item.chars style (level + 1) ++
      (itemChars style (level + 1) items ++ (style.lineBreak level ++ ']' :: rest))) =
      if (item :: items).all readable then some (item :: items, rest) else none := by
  obtain ⟨blanks, hcomma, hblanks⟩ := hstyle.separator
  have hbracket : EndsNumber (']' :: rest) := endsNumber_cons rfl (by decide)
  have hends := endsNumber_itemChars hstyle level items hbracket
  induction items generalizing item fuel with
  | nil =>
    obtain ⟨fuel, rfl⟩ := Nat.exists_eq_succ_of_ne_zero (Nat.ne_of_gt (Nat.zero_lt_of_lt hfuel))
    rw [items?_item (level + 1) item (hall item List.mem_cons_self) (by omega) hends, itemChars,
      List.nil_append, skipBlanks_append JsonStyle.isBlank_of_mem_lineBreak, skipBlanks_cons rfl,
      List.all_cons, List.all_nil, Bool.and_true]
    rfl
  | cons next items ih =>
    obtain ⟨fuel, rfl⟩ := Nat.exists_eq_succ_of_ne_zero (Nat.ne_of_gt (Nat.zero_lt_of_lt hfuel))
    have hlength : (next.chars style (level + 1)).length +
        (itemChars style (level + 1) items).length < fuel := by
      simp only [itemChars, hcomma, List.length_append, List.length_cons] at hfuel
      omega
    have hnext := ih next (fun x hx => hall x (List.mem_cons_of_mem _ hx)) hlength
      (endsNumber_itemChars hstyle level items hbracket)
    rw [items?_item (level + 1) item (hall item List.mem_cons_self) (by omega) hends, List.all_cons]
    simp only [itemChars, hcomma, List.cons_append, List.append_assoc,
      skipBlanks_cons (show isBlank ',' = false from rfl), items?_blanks hblanks,
      items?_blanks JsonStyle.isBlank_of_mem_lineBreak, hnext]
    -- the item in front decides first, and those behind it if it is read
    cases readable item <;> cases (next :: items).all readable <;> rfl

/-- Members are read up to the bracket that closes them if the value of each is, and refused
otherwise. -/
theorem members?_chars (rest : List Char) (level : Nat) (name : String) (value : Json)
    (members : List (String × Json))
    (hall : ∀ m ∈ (name, value) :: members, Reads style (readable m.2) m.2)
    (hfuel : (style.text name).length + (value.chars style (level + 1)).length +
      (memberChars style (level + 1) members).length < fuel) :
    members? fuel (style.text name ++ (style.colon ++ (value.chars style (level + 1) ++
      (memberChars style (level + 1) members ++ (style.lineBreak level ++ '\x7d' :: rest))))) =
      if ((name, value) :: members).all fun m => readable m.2 then
        some ((name, value) :: members, rest)
      else none := by
  obtain ⟨blanks, hcomma, hblanks⟩ := hstyle.separator
  have hbracket : EndsNumber ('\x7d' :: rest) := endsNumber_cons rfl (by decide)
  have hends := endsNumber_memberChars hstyle level members hbracket
  induction members generalizing name value fuel with
  | nil =>
    obtain ⟨fuel, rfl⟩ := Nat.exists_eq_succ_of_ne_zero (Nat.ne_of_gt (Nat.zero_lt_of_lt hfuel))
    rw [members?_member hstyle (level + 1) name value (hall (name, value) List.mem_cons_self)
      (by omega) hends,
      memberChars, List.nil_append, skipBlanks_append JsonStyle.isBlank_of_mem_lineBreak,
      skipBlanks_cons rfl,
      List.all_cons, List.all_nil, Bool.and_true]
    rfl
  | cons next members ih =>
    obtain ⟨nextName, nextValue⟩ := next
    obtain ⟨fuel, rfl⟩ := Nat.exists_eq_succ_of_ne_zero (Nat.ne_of_gt (Nat.zero_lt_of_lt hfuel))
    have hlength : (style.text nextName).length + (nextValue.chars style (level + 1)).length +
        (memberChars style (level + 1) members).length < fuel := by
      simp only [memberChars, hcomma, List.length_append, List.length_cons] at hfuel
      omega
    have hnext := ih nextName nextValue (fun m hm => hall m (List.mem_cons_of_mem _ hm)) hlength
      (endsNumber_memberChars hstyle level members hbracket)
    rw [members?_member hstyle (level + 1) name value (hall (name, value) List.mem_cons_self)
      (by omega) hends, List.all_cons]
    simp only [memberChars, hcomma, List.cons_append, List.append_assoc,
      skipBlanks_cons (show isBlank ',' = false from rfl), members?_blanks hblanks,
      members?_blanks JsonStyle.isBlank_of_mem_lineBreak, hnext]
    cases readable value <;> cases ((nextName, nextValue) :: members).all fun m =>
      readable m.2 <;> rfl

/-! ### Documents -/

/-- An array is read back if each of its items is, and refused otherwise. -/
theorem reads_array (readable : Json → Bool) {items : List Json}
    (hopens : ∀ item ∈ items, ∀ level, Opens (item.chars style level))
    (hall : ∀ item ∈ items, Reads style (readable item) item) :
    Reads style (items.all readable) (array items) := by
  intro level fuel rest hfuel hends
  cases items with
  | nil =>
    cases fuel with
    | zero => cases hfuel
    | succ fuel => rfl
  | cons item items =>
    simp only [chars, List.length_append, List.length_cons, List.length_nil] at hfuel
    obtain ⟨fuel, rfl⟩ := Nat.exists_eq_succ_of_ne_zero (show fuel ≠ 0 by omega)
    have hblanks : ∀ c ∈ style.lineBreak (level + 1), isBlank c = true :=
      JsonStyle.isBlank_of_mem_lineBreak
    have hopens := (hopens item List.mem_cons_self (level + 1)).append
      (itemChars style (level + 1) items ++ (style.lineBreak level ++ ']' :: rest))
    simp only [chars, List.cons_append, List.append_assoc, List.nil_append]
    rw [value?_array hblanks hopens, items?_chars hstyle rest level item items hall (by omega)]
    cases (item :: items).all readable <;> rfl

/-- An object is read back if the value of each of its members is, and refused otherwise. -/
theorem reads_object (readable : Json → Bool) {members : List (String × Json)}
    (hall : ∀ m ∈ members, Reads style (readable m.2) m.2) :
    Reads style (members.all fun m => readable m.2) (object members) := by
  intro level fuel rest hfuel hends
  cases members with
  | nil =>
    cases fuel with
    | zero => cases hfuel
    | succ fuel => rfl
  | cons member members =>
    obtain ⟨name, value⟩ := member
    simp only [chars, List.length_append, List.length_cons, List.length_nil] at hfuel
    obtain ⟨fuel, rfl⟩ := Nat.exists_eq_succ_of_ne_zero (show fuel ≠ 0 by omega)
    have hblanks : ∀ c ∈ style.lineBreak (level + 1), isBlank c = true :=
      JsonStyle.isBlank_of_mem_lineBreak
    simp only [chars, List.cons_append, List.append_assoc, List.nil_append]
    rw [value?_object hblanks, members?_chars hstyle rest level name value members hall (by omega)]
    cases ((name, value) :: members).all fun m => readable m.2 <;> rfl

end

mutual

/-- A document is read back before anything that ends a number. -/
theorem value?_chars (hstyle : style.Standard) : ∀ j : Json, j.Standard → ReadsBack style j
  | null, _ => fun level fuel rest hfuel hends => by
    cases fuel with
    | zero => cases hfuel
    | succ fuel => rfl
  | bool b, _ => fun level fuel rest hfuel hends => by
    cases fuel with
    | zero => cases b <;> cases hfuel
    | succ fuel => cases b <;> rfl
  | int i, _ => fun level fuel rest hfuel hends => by
    rw [chars] at hfuel ⊢
    cases fuel with
    | zero => exact absurd (opens_of_number? (number?_int i)).length_pos (Nat.not_lt.2 hfuel)
    | succ fuel => exact value?_number (number?_append (number?_int i) hends)
  | number written, h => fun level fuel rest hfuel hends => by
    rw [Standard] at h
    rw [chars] at hfuel ⊢
    cases fuel with
    | zero => exact absurd (opens_of_number? h).length_pos (Nat.not_lt.2 hfuel)
    | succ fuel => exact value?_number (number?_append h hends)
  | text s, _ => fun level fuel rest hfuel hends => by
    cases fuel with
    | zero => cases hfuel
    | succ fuel =>
      have hread : value? (fuel + 1) (style.text s ++ rest) = _ :=
        value?_points (Text.unpaired_points s) hfuel
      rwa [ofPoints_points] at hread
  | broken ps, h => fun level fuel rest hfuel hends => by
    rw [Standard] at h
    cases fuel with
    | zero => cases hfuel
    | succ fuel =>
      have hread : value? (fuel + 1) (style.points ps ++ rest) = _ := value?_points h.1 hfuel
      rwa [ofPoints_eq_broken h.2] at hread
  | array items, h => by
    rw [Standard] at h
    have hitems := items_readBack hstyle items h
    have hopens : ∀ item ∈ items, ∀ level, Opens (item.chars style level) :=
      fun item hmem level => opens_chars style level (itemsStandard_iff.1 h item hmem)
    have harray := reads_array hstyle (fun _ => true) hopens fun x hx =>
      reads_true_iff.2 (hitems x hx)
    rwa [List.all_eq_true.2 fun _ _ => rfl, reads_true_iff] at harray
  | object members, h => by
    rw [Standard] at h
    have hmembers := members_readBack hstyle members h
    have hobject := reads_object hstyle (fun _ => true) fun m hm => reads_true_iff.2 (hmembers m hm)
    rwa [List.all_eq_true.2 fun _ _ => rfl, reads_true_iff] at hobject

/-- `value?_chars` for items. -/
theorem items_readBack (hstyle : style.Standard) :
    ∀ items : List Json, ItemsStandard items → ∀ item ∈ items, ReadsBack style item
  | [], _ => by simp
  | item :: rest, h => by
    rw [ItemsStandard] at h
    exact List.forall_mem_cons.2 ⟨value?_chars hstyle item h.1, items_readBack hstyle rest h.2⟩

/-- `value?_chars` for the values of members. -/
theorem members_readBack (hstyle : style.Standard) :
    ∀ members : List (String × Json), MembersStandard members →
      ∀ member ∈ members, ReadsBack style member.2
  | [], _ => by simp
  | (name, value) :: rest, h => by
    rw [MembersStandard] at h
    exact List.forall_mem_cons.2 ⟨value?_chars hstyle value h.1, members_readBack hstyle rest h.2⟩

end

/-- A document is read back from its text. -/
theorem read?_write (hstyle : style.Standard) {j : Json} (h : j.Standard) :
    read? (j.write style) = some j := by
  have hread := value?_chars hstyle j h 0 (2 * (j.write style).length + 2) []
    (by rw [write, String.length_ofList]; omega) endsNumber_nil
  rw [List.append_nil] at hread
  rw [read?, write, String.toList_ofList]
  rw [write] at hread
  simp only [hread, skipBlanks, List.dropWhile_nil, List.isEmpty_nil, if_true]

end Json

end CredentialWrites
