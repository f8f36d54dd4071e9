import CredentialWrites.Proofs.Value.Spelling

/-!
# What it takes to be the same

Values are compared by their kinds. What has no parts is told by an atom, whatever its kind: a
number by its value, a text of any kind by its characters, bytes by what they are. Sequences of one
kind are compared item by item, sets and frozen sets by their members, mappings and views by their
entries.

* `Value.Atom` : what a value without parts is compared by.
* `Value.same_atom_iff`, `Value.same_tuple_iff`, `Value.same_members_iff`, `Value.same_entries_iff`
  : when a value is the same as another.
* `Value.same_named_iff` : when values under names are the same.
-/

namespace CredentialWrites

namespace Value

/-- What a value without parts is compared by. -/
inductive Atom where
  | null
  | nan (cell : Cell)
  | number (x : Int ⊕ Double)
  | text (s : String)
  | bytes (bs : List UInt8)
  | member (m : Member)
deriving DecidableEq

/-- The atom of a value without parts. -/
def atom? : Value → Option Atom
  | null => some .null
  | nan c => some (.nan c)
  | text s => some (.text s)
  | member m => some (if m.isText then .text m.token else .member m)
  | bytes bs => some (.bytes bs)
  | buffer _ bs => some (.bytes bs)
  | v => v.number?.map .number

/-- The members of a set. -/
def members? : Value → Option (List Value)
  | set _ items => some items
  | frozenSet items => some items
  | _ => none

variable {a b : Value} {xs ys : List Value} {es ds : List (Value × Value)}

/-! ### Parts -/

theorem sameAll_iff : sameAll xs ys ↔ List.Forall₂ (fun x y => same x y) xs ys := by
  induction xs generalizing ys with
  | nil => cases ys <;> simp [sameAll]
  | cons x xs ih => cases ys <;> simp [sameAll, ih]

theorem eachIn_iff : eachIn xs ys ↔ ∀ x ∈ xs, ∃ y ∈ ys, same x y := by
  induction xs with
  | nil => simp [eachIn]
  | cons x xs ih => simp [eachIn, ih]

theorem eachEntryIn_iff :
    eachEntryIn es ds ↔ ∀ e ∈ es, ∃ d ∈ ds, same e.1 d.1 ∧ same e.2 d.2 := by
  induction es with
  | nil => simp [eachEntryIn]
  | cons e es ih =>
    obtain ⟨k, v⟩ := e
    simp [eachEntryIn, ih]

/-! ### Atoms -/

theorem atom?_eq_text_iff {s : String} : a.atom? = some (.text s) ↔ a.text? = some s := by
  cases a with
  | member m => by_cases hm : m.isText <;> simp [atom?, text?, hm]
  | _ => simp [atom?, text?, number?]

theorem atom?_eq_number_iff {x : Int ⊕ Double} :
    a.atom? = some (.number x) ↔ a.number? = some x := by
  cases a with
  | member m => by_cases hm : m.isText <;> simp [atom?, number?, hm]
  | _ => simp [atom?, number?]

theorem atom?_eq_bytes_iff {bs : List UInt8} : a.atom? = some (.bytes bs) ↔ a.bytes? = some bs := by
  cases a with
  | member m => by_cases hm : m.isText <;> simp [atom?, bytes?, hm]
  | _ => simp [atom?, bytes?, number?]

theorem atom?_eq_null_iff : a.atom? = some .null ↔ a = null := by
  cases a with
  | member m => by_cases hm : m.isText <;> simp [atom?, hm]
  | _ => simp [atom?, number?]

theorem atom?_eq_nan_iff {c : Cell} : a.atom? = some (.nan c) ↔ a = nan c := by
  cases a with
  | member m => by_cases hm : m.isText <;> simp [atom?, hm]
  | _ => simp [atom?, number?]

theorem atom?_eq_member_iff {m : Member} :
    a.atom? = some (.member m) ↔ a = member m ∧ ¬ m.isText := by
  cases a with
  | member n =>
    by_cases hn : n.isText
    · have hne : n = m → m.isText := fun h => h ▸ hn
      simpa [atom?, hn] using hne
    · have hatom : (member n).atom? = some (.member n) := by simp [atom?, hn]
      rw [hatom]
      constructor
      · intro h
        cases h
        exact ⟨rfl, hn⟩
      · rintro ⟨h, -⟩
        cases h
        rfl
  | _ => simp [atom?, number?]

theorem same_member_iff {m n : Member} : same (member m) (member n) ↔ m = n := by
  simp [same, sameAtom]

theorem same_texts_iff {s t : String} : same (text s) (text t) ↔ s = t := by
  rw [same_texts rfl rfl, beq_iff_eq]

theorem same_bools_iff {x y : Bool} : same (bool x) (bool y) ↔ x = y := by
  cases x <;> cases y <;> decide

theorem text?_ofWord (w : Word) : (ofWord w).text? = some w.text := by
  cases w <;> rfl

theorem isScalar_ofWord (w : Word) : (ofWord w).isScalar := by
  cases w <;> rfl

theorem same_text_iff {s : String} (ha : a.text? = some s) : same a b ↔ b.text? = some s := by
  cases hb : b.text? with
  | some t =>
    rw [same_texts ha hb, beq_iff_eq, Option.some.injEq]
    exact eq_comm
  | none =>
    obtain rfl | ⟨m, rfl, hm, rfl⟩ := eq_of_text?_eq_some ha
    · simp [same, sameAtom, hb]
    · -- a member of a vocabulary of texts is compared with texts alone
      cases b with
      | text t => cases hb
      | member n =>
        have hne : m ≠ n := by
          rintro rfl
          simp [text?, hm] at hb
        simp [same, sameAtom, hne]
      | _ => simp [same, sameAtom, number?, bytes?]

theorem beq_number_iff {x y : Int ⊕ Double} : (x == y) = true ↔ x = y := by
  cases x <;> cases y <;> simp [BEq.beq, Sum.instBEq.beq]

theorem same_number_iff {x : Int ⊕ Double} (ha : a.number? = some x) :
    same a b ↔ b.number? = some x := by
  have hsame : same a b = b.number?.any (x == ·) := by
    cases a <;> cases ha <;> cases b <;> rfl
  rw [hsame, Option.any_eq_true]
  simp only [beq_number_iff, exists_eq_right']

theorem same_bytes_iff {bs : List UInt8} (ha : a.bytes? = some bs) :
    same a b ↔ b.bytes? = some bs := by
  have hsame : same a b = b.bytes?.any (bs == ·) := by
    cases a <;> cases ha <;> cases b <;> rfl
  rw [hsame, Option.any_eq_true]
  simp only [beq_iff_eq, exists_eq_right']

/-- A value without parts is the same as the values of its atom. -/
theorem same_atom_iff {x : Atom} (ha : a.atom? = some x) : same a b ↔ b.atom? = some x := by
  cases x with
  | text s => rw [atom?_eq_text_iff, same_text_iff (atom?_eq_text_iff.1 ha)]
  | number x => rw [atom?_eq_number_iff, same_number_iff (atom?_eq_number_iff.1 ha)]
  | bytes bs => rw [atom?_eq_bytes_iff, same_bytes_iff (atom?_eq_bytes_iff.1 ha)]
  | null =>
    obtain rfl := atom?_eq_null_iff.1 ha
    rw [atom?_eq_null_iff]
    cases b <;> simp [same, sameAtom, number?, bytes?]
  | nan c =>
    obtain rfl := atom?_eq_nan_iff.1 ha
    rw [atom?_eq_nan_iff]
    cases b with
    | nan d =>
      rw [nan.injEq, same, sameAtom, beq_iff_eq]
      exact eq_comm
    | _ => simp [same, sameAtom, number?, bytes?]
  | member m =>
    obtain ⟨rfl, hm⟩ := atom?_eq_member_iff.1 ha
    rw [atom?_eq_member_iff]
    cases b with
    | member n =>
      rw [same_member_iff, member.injEq]
      constructor
      · rintro rfl
        exact ⟨rfl, hm⟩
      · exact fun h => h.1.symm
    | _ => simp [same, sameAtom, number?, bytes?, hm]

/-! ### Collections -/

theorem same_tuples_iff : same (tuple xs) (tuple ys) ↔
    List.Forall₂ (fun x y => same x y) xs ys := by
  rw [same, sameAll_iff]

theorem same_lists_iff {c d : Cell} :
    same (list c xs) (list d ys) ↔ List.Forall₂ (fun x y => same x y) xs ys := by
  rw [same, sameAll_iff]

theorem same_tuple_iff :
    same (tuple xs) b ↔ ∃ ys, b = tuple ys ∧ List.Forall₂ (fun x y => same x y) xs ys := by
  cases b <;> simp [same, sameAll_iff]

theorem same_list_iff {c : Cell} :
    same (list c xs) b ↔ ∃ d ys, b = list d ys ∧ List.Forall₂ (fun x y => same x y) xs ys := by
  cases b <;> simp [same, sameAll_iff]

theorem same_records_iff {kind kind' : RecordKind} :
    same (record kind xs) (record kind' ys) ↔ kind = kind' ∧
      List.Forall₂ (fun x y => same x y) xs ys := by
  simp [same, sameAll_iff]

theorem same_record_iff {kind : RecordKind} :
    same (record kind xs) b ↔ ∃ ys, b = record kind ys ∧
      List.Forall₂ (fun x y => same x y) xs ys := by
  cases b with
  | record kind' ys =>
    rw [same_records_iff]
    constructor
    · rintro ⟨rfl, h⟩
      exact ⟨_, rfl, h⟩
    · rintro ⟨_, heq, h⟩
      cases heq
      exact ⟨rfl, h⟩
  | _ => simp [same]

/-- A set is the same as the sets that have as many members, and each of its own among them. -/
theorem same_members_iff (ha : a.members? = some xs) :
    same a b ↔ ∃ ys, b.members? = some ys ∧ xs.length = ys.length ∧ ∀ x ∈ xs,
      ∃ y ∈ ys, same x y := by
  cases a <;> cases ha <;> cases b <;> simp [same, members?, eachIn_iff]

/-- A mapping is the same as the mappings that have as many entries, and each of its own among
them. -/
theorem same_entries_iff (ha : a.entries? = some es) :
    same a b ↔ ∃ ds, b.entries? = some ds ∧ es.length = ds.length ∧
      ∀ e ∈ es, ∃ d ∈ ds, same e.1 d.1 ∧ same e.2 d.2 := by
  cases a <;> cases ha <;> cases b <;> simp [same, entries?, eachEntryIn_iff]

/-! ### Named values -/

variable {name : String} {names : List String}

theorem not_same_of_mem_named (hname : name ∉ names) {e : Value × Value}
    (he : e ∈ (names.map text).zip xs) : ¬ same (text name) e.1 ∧ ¬ same e.1 (text name) := by
  obtain ⟨other, hother, hfst⟩ := List.mem_map.1 (List.of_mem_zip he).1
  have hne : name ≠ other := fun heq => hname (heq ▸ hother)
  rw [← hfst, same_texts_iff, same_texts_iff]
  exact ⟨hne, hne.symm⟩

theorem each_named_iff (hnames : names.Nodup) (hx : xs.length = names.length)
    (hy : ys.length = names.length) :
    (∀ e ∈ (names.map text).zip xs, ∃ d ∈ (names.map text).zip ys, same e.1 d.1 ∧ same e.2 d.2) ↔
      List.Forall₂ (fun x y => same x y) xs ys := by
  induction names generalizing xs ys with
  | nil =>
    obtain rfl := List.length_eq_zero_iff.1 hx
    obtain rfl := List.length_eq_zero_iff.1 hy
    simp
  | cons name names ih =>
    obtain ⟨x, xs, rfl⟩ := List.exists_cons_of_length_eq_add_one hx
    obtain ⟨y, ys, rfl⟩ := List.exists_cons_of_length_eq_add_one hy
    rw [List.nodup_cons] at hnames
    rw [List.forall₂_cons, ← ih hnames.2 (by simpa using hx) (by simpa using hy), List.map_cons,
      List.zip_cons_cons, List.zip_cons_cons, List.forall_mem_cons]
    -- the first value is found under the first name only, and no other value is found there
    refine and_congr ?_ (forall₂_congr fun e he => ?_)
    · constructor
      · rintro ⟨d, hd, hkey, hvalue⟩
        rcases List.mem_cons.1 hd with rfl | hd
        · exact hvalue
        · exact absurd hkey (not_same_of_mem_named hnames.1 hd).1
      · exact fun hxy => ⟨_, List.mem_cons_self, same_texts_iff.2 rfl, hxy⟩
    · constructor
      · rintro ⟨d, hd, hkey, hvalue⟩
        rcases List.mem_cons.1 hd with rfl | hd
        · exact absurd hkey (not_same_of_mem_named hnames.1 he).2
        · exact ⟨d, hd, hkey, hvalue⟩
      · rintro ⟨d, hd, hsame⟩
        exact ⟨d, List.mem_cons_of_mem _ hd, hsame⟩

/-- Values under the same names are the same one by one. -/
theorem same_named_iff {c d : Cell} (names : List String) (xs ys : List Value)
    (hnames : names.Nodup) (hx : xs.length = names.length) (hy : ys.length = names.length) :
    same (map c ((names.map text).zip xs)) (map d ((names.map text).zip ys)) ↔
      List.Forall₂ (fun x y => same x y) xs ys := by
  have hlength : ((names.map text).zip xs).length = ((names.map text).zip ys).length := by
    simp [hx, hy]
  rw [same_entries_iff rfl]
  simp only [entries?, Option.some.injEq, exists_eq_left', hlength, true_and,
    each_named_iff hnames hx hy]

end Value

end CredentialWrites
