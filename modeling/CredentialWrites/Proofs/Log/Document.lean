import CredentialWrites.Log.Line
import CredentialWrites.Proofs.Json.Decimal
import CredentialWrites.Proofs.Payload.Text
import CredentialWrites.Proofs.Value.Nested

/-!
# Documents of log lines

What becomes of a value in a structured line. The line goes into lists, tuples and mappings; a
number stands as it is written, and any other value as a text of characters. The fragile parts of
the document are the numbers of the value, in the same order. A value is lost for two reasons only:
a key of one of its mappings has no name, or a value that has to stand as a text has no plain form.

* `LineFormat.numbersOf`, `LineFormat.keysOf` : the numbers and the keys that a line shows of a
  value.
* `LineFormat.fragile_of_document` : the fragile parts of a document are the numbers of the value.
* `LineFormat.exists_document_iff` : the values that have a document.
* `LineFormat.exists_standsFor` : what a document of texts becomes is read as what it spells.
-/

namespace CredentialWrites

namespace LineFormat

open Value hiding document

/-- A number as it is written in a line, where what is no number has a word of its own. -/
def numberWritten : Option Double → String
  | some x => numberText x
  | none => "NaN"

/-- The document of such a number. -/
def numberDocument (x : Option Double) : Json :=
  .number (numberWritten x)

mutual

/-- The numbers with a fraction that a line shows of a value, with `none` for what is no number. -/
def numbersOf : Value → List (Option Double)
  | .float x => [some x]
  | .nan _ => [none]
  | .list _ items => numbersOfAll items
  | .tuple items => numbersOfAll items
  | .map _ es => numbersOfEntries es
  | _ => []

/-- `numbersOf` for every value of a list. -/
def numbersOfAll : List Value → List (Option Double)
  | [] => []
  | v :: vs => numbersOf v ++ numbersOfAll vs

/-- `numbersOf` for every value of a mapping. -/
def numbersOfEntries : List (Value × Value) → List (Option Double)
  | [] => []
  | (_, v) :: es => numbersOf v ++ numbersOfEntries es

end

mutual

/-- The keys that a line shows of a value. -/
def keysOf : Value → List Value
  | .list _ items => keysOfAll items
  | .tuple items => keysOfAll items
  | .map _ es => keysOfEntries es
  | _ => []

/-- `keysOf` for every value of a list. -/
def keysOfAll : List Value → List Value
  | [] => []
  | v :: vs => keysOf v ++ keysOfAll vs

/-- The keys of a mapping, and `keysOf` for each of its values. -/
def keysOfEntries : List (Value × Value) → List Value
  | [] => []
  | (k, v) :: es => k :: (keysOf v ++ keysOfEntries es)

end

mutual

/-- The parts of a value that stand in a line as their plain forms. -/
def plainsOf : Value → List Value
  | .list _ items => plainsOfAll items
  | .tuple items => plainsOfAll items
  | .map _ es => plainsOfEntries es
  | .null => []
  | .bool _ => []
  | .int _ => []
  | .float _ => []
  | .nan _ => []
  | .text _ => []
  | .member _ => []
  | v => [v]

/-- `plainsOf` for every value of a list. -/
def plainsOfAll : List Value → List Value
  | [] => []
  | v :: vs => plainsOf v ++ plainsOfAll vs

/-- `plainsOf` for every value of a mapping. -/
def plainsOfEntries : List (Value × Value) → List Value
  | [] => []
  | (_, v) :: es => plainsOf v ++ plainsOfEntries es

end

/-- The key of a mapping becomes a name: it is a text, a number, a truth value or null. -/
def isNameable : Value → Bool
  | .null => true
  | .bool _ => true
  | .int _ => true
  | .float _ => true
  | .nan _ => true
  | k => k.text?.isSome

mutual

/-- The fragile parts of the document of a value are the numbers of the value, each as it is
written. -/
theorem fragile_of_document : ∀ {v : Value} {j : Json}, document v = .ok j →
    j.fragile = (numbersOf v).map numberDocument
  | .list _ items, j, h | .tuple items, j, h => by
    rw [document, Except.bind_eq_ok] at h
    obtain ⟨js, hjs, h⟩ := h
    rw [← Except.pure_eq_ok.1 h, Json.fragile, numbersOf]
    exact fragile_of_documents hjs
  | .map _ es, j, h => by
    rw [document, Except.bind_eq_ok] at h
    obtain ⟨ms, hms, h⟩ := h
    rw [← Except.pure_eq_ok.1 h, Json.fragile, numbersOf]
    exact fragile_of_members hms
  | .null, j, h | .bool _, j, h | .int _, j, h | .float _, j, h | .nan _, j, h | .text _, j, h
  | .member _, j, h => by
    rw [document, Except.ok.injEq] at h
    rw [← h]
    rfl
  | .bytes _, j, h | .frozenSet _, j, h | .view _, j, h | .record _ _, j, h | .set _ _, j, h
  | .buffer _ _, j, h | .stream _ _, j, h | .fault _ _ _ _, j, h | .object _ _ _, j, h => by
    -- a plain form stands as a text of characters, which has no fragile parts
    rw [document, Except.bind_eq_ok] at h
    · obtain ⟨w, -, h⟩ := h
      rw [← Except.pure_eq_ok.1 h]
      rfl
    all_goals nofun

theorem fragile_of_documents : ∀ {vs : List Value} {js : List Json}, documents vs = .ok js →
    Json.itemsFragile js = (numbersOfAll vs).map numberDocument
  | [], js, h => by
    rw [documents, Except.ok.injEq] at h
    rw [← h]
    rfl
  | v :: vs, js, h => by
    simp only [documents, Except.bind_eq_ok, Except.pure_eq_ok] at h
    obtain ⟨j, hj, js, hjs, rfl⟩ := h
    rw [Json.itemsFragile, numbersOfAll, List.map_append, fragile_of_document hj,
      fragile_of_documents hjs]

theorem fragile_of_members : ∀ {es : List (Value × Value)} {ms : List (String × Json)},
    members es = .ok ms → Json.membersFragile ms = (numbersOfEntries es).map numberDocument
  | [], ms, h => by
    rw [members, Except.ok.injEq] at h
    rw [← h]
    rfl
  | (k, v) :: es, ms, h => by
    simp only [members, Except.bind_eq_ok, Except.pure_eq_ok] at h
    obtain ⟨name, -, j, hj, ms, hms, rfl⟩ := h
    rw [Json.membersFragile, numbersOfEntries, List.map_append, fragile_of_document hj,
      fragile_of_members hms]

end

/-! ### What has a document -/

theorem memberName_of_text? {k : Value} {s : String} (h : k.text? = some s) :
    memberName k = .ok s := by
  obtain rfl | ⟨m, rfl, -⟩ := eq_of_text?_eq_some h
  · rfl
  · rw [memberName]
    · rw [h]
    all_goals nofun

theorem exists_memberName_iff {k : Value} : (∃ name, memberName k = .ok name) ↔ isNameable k := by
  cases htext : k.text? with
  | some s =>
    refine iff_of_true ⟨s, memberName_of_text? htext⟩ ?_
    obtain rfl | ⟨m, rfl, -⟩ := eq_of_text?_eq_some htext
    · rfl
    · rw [isNameable, htext]
      · rfl
      all_goals nofun
  | none => cases k <;> simp [memberName, isNameable, htext]

mutual

/-- A value has a document if its keys have names and the parts that stand as texts have plain
forms. -/
theorem exists_document_iff : ∀ v : Value, (∃ j, document v = .ok j) ↔
    (∀ k ∈ keysOf v, isNameable k) ∧ ∀ w ∈ plainsOf v, ∃ s, w.plain = .ok s
  | .list _ items | .tuple items => by
    simp only [document, keysOf, plainsOf, Except.bind_eq_ok, Except.pure_eq_ok]
    rw [← exists_documents_iff items]
    exact ⟨fun ⟨_, js, hjs, _⟩ => ⟨js, hjs⟩, fun ⟨js, hjs⟩ => ⟨_, js, hjs, rfl⟩⟩
  | .map _ es => by
    simp only [document, keysOf, plainsOf, Except.bind_eq_ok, Except.pure_eq_ok]
    rw [← exists_members_iff es]
    exact ⟨fun ⟨_, ms, hms, _⟩ => ⟨ms, hms⟩, fun ⟨ms, hms⟩ => ⟨_, ms, hms, rfl⟩⟩
  | .null | .bool _ | .int _ | .float _ | .nan _ | .text _ | .member _ => by
    simp [document, keysOf, plainsOf]
  | .bytes _ | .frozenSet _ | .view _ | .record _ _ | .set _ _ | .buffer _ _ | .stream _ _
  | .fault _ _ _ _ | .object _ _ _ => by
    rw [document]
    · simp only [keysOf, plainsOf, Except.bind_eq_ok, Except.pure_eq_ok, List.not_mem_nil,
        List.mem_singleton, forall_eq, false_implies, implies_true, true_and]
      exact ⟨fun ⟨_, w, hw, _⟩ => ⟨w, hw⟩, fun ⟨w, hw⟩ => ⟨_, w, hw, rfl⟩⟩
    all_goals nofun

theorem exists_documents_iff : ∀ vs : List Value, (∃ js, documents vs = .ok js) ↔
    (∀ k ∈ keysOfAll vs, isNameable k) ∧ ∀ w ∈ plainsOfAll vs, ∃ s, w.plain = .ok s
  | [] => by simp [documents, keysOfAll, plainsOfAll]
  | v :: vs => by
    have hv := exists_document_iff v
    have hvs := exists_documents_iff vs
    simp only [documents, keysOfAll, plainsOfAll, Except.bind_eq_ok, Except.pure_eq_ok,
      List.forall_mem_append]
    constructor
    · rintro ⟨_, j, hj, js, hjs, -⟩
      have hhead := hv.1 ⟨j, hj⟩
      have htail := hvs.1 ⟨js, hjs⟩
      exact ⟨⟨hhead.1, htail.1⟩, hhead.2, htail.2⟩
    · rintro ⟨⟨hkey, hkeys⟩, hplain, hplains⟩
      obtain ⟨j, hj⟩ := hv.2 ⟨hkey, hplain⟩
      obtain ⟨js, hjs⟩ := hvs.2 ⟨hkeys, hplains⟩
      exact ⟨_, j, hj, js, hjs, rfl⟩

theorem exists_members_iff : ∀ es : List (Value × Value), (∃ ms, members es = .ok ms) ↔
    (∀ k ∈ keysOfEntries es, isNameable k) ∧ ∀ w ∈ plainsOfEntries es, ∃ s, w.plain = .ok s
  | [] => by simp [members, keysOfEntries, plainsOfEntries]
  | (k, v) :: es => by
    have hk := exists_memberName_iff (k := k)
    have hv := exists_document_iff v
    have hes := exists_members_iff es
    simp only [members, keysOfEntries, plainsOfEntries, Except.bind_eq_ok, Except.pure_eq_ok,
      List.forall_mem_cons, List.forall_mem_append]
    constructor
    · rintro ⟨_, name, hname, j, hj, ms, hms, -⟩
      have hhead := hv.1 ⟨j, hj⟩
      have htail := hes.1 ⟨ms, hms⟩
      exact ⟨⟨hk.1 ⟨name, hname⟩, hhead.1, htail.1⟩, hhead.2, htail.2⟩
    · rintro ⟨⟨hname, hkey, hkeys⟩, hplain, hplains⟩
      obtain ⟨name, hname⟩ := hk.2 hname
      obtain ⟨j, hj⟩ := hv.2 ⟨hkey, hplain⟩
      obtain ⟨ms, hms⟩ := hes.2 ⟨hkeys, hplains⟩
      exact ⟨_, name, hname, j, hj, ms, hms, rfl⟩

end

/-! ### What a document is read as -/

mutual

/-- A plain document of texts has a document, which is read as what it spells. -/
theorem exists_standsFor : ∀ {v : Value}, v.isPlain → v.isTextDocument →
    ∃ j, document v = .ok j ∧ j.StandsFor v
  | .list _ items, hplain, htext => by
    rw [isPlain] at hplain
    rw [isTextDocument] at htext
    obtain ⟨js, hjs, hstand⟩ := exists_itemsStandFor hplain htext
    exact ⟨.array js, by simp [document, hjs, bind, Except.bind, pure, Except.pure], hstand.array⟩
  | .map _ es, hplain, htext => by
    rw [isPlain] at hplain
    simp only [isTextDocument, Bool.and_eq_true] at htext
    obtain ⟨ms, hms, hstand⟩ := exists_membersStandFor hplain htext.2
    exact ⟨.object ms, by simp [document, hms, bind, Except.bind, pure, Except.pure],
      hstand.object (text?_of_areWireEntries (areWireEntries_of_arePlainEntries hplain htext.2))
      htext.1⟩
  | .null, _, _ => ⟨.null, rfl, trivial, rfl⟩
  | .bool b, _, _ => ⟨.bool b, rfl, trivial, rfl⟩
  | .int i, _, _ => ⟨.int i, rfl, trivial, rfl⟩
  | .text s, _, _ => ⟨.text s, rfl, trivial, rfl⟩
  | .member m, _, htext => by
    have hm : m.isText := by simpa [isTextDocument, text?] using htext
    refine ⟨.text m.token, by rw [document, if_pos hm], trivial, ?_⟩
    rw [Json.toValue, spelled, if_pos hm]
  -- a tuple would be read back as a list, and a view as a text
  | .view _, hplain, _ | .tuple _, hplain, _ => by cases hplain
  | .float _, _, h | .nan _, _, h | .bytes _, _, h | .frozenSet _, _, h | .record _ _, _, h
  | .set _ _, _, h | .buffer _ _, _, h | .stream _ _, _, h | .fault _ _ _ _, _, h
  | .object _ _ _, _, h => by cases h

theorem exists_itemsStandFor : ∀ {vs : List Value}, arePlain vs → areTextDocuments vs →
    ∃ js, documents vs = .ok js ∧ Json.ItemsStandFor js vs
  | [], _, _ => ⟨[], rfl, .nil⟩
  | v :: vs, hplain, htext => by
    simp only [arePlain, Bool.and_eq_true] at hplain
    simp only [areTextDocuments, Bool.and_eq_true] at htext
    obtain ⟨j, hj, hstands⟩ := exists_standsFor hplain.1 htext.1
    obtain ⟨js, hjs, hstand⟩ := exists_itemsStandFor hplain.2 htext.2
    exact ⟨j :: js, by simp [documents, hj, hjs, bind, Except.bind, pure,
      Except.pure], .cons hstands hstand⟩

theorem exists_membersStandFor :
    ∀ {es : List (Value × Value)}, arePlainEntries es → areTextEntries es →
    ∃ ms, members es = .ok ms ∧ Json.MembersStandFor ms es
  | [], _, _ => ⟨[], rfl, .nil⟩
  | (k, v) :: es, hplain, htext => by
    simp only [arePlainEntries, Bool.and_eq_true] at hplain
    simp only [areTextEntries, Bool.and_eq_true] at htext
    obtain ⟨name, hname⟩ := Option.isSome_iff_exists.1 htext.1.1
    obtain ⟨j, hj, hstands⟩ := exists_standsFor hplain.1 htext.1.2
    obtain ⟨ms, hms, hstand⟩ := exists_membersStandFor hplain.2 htext.2
    exact ⟨(name, j) :: ms,
      by simp [members, memberName_of_text? hname, hj, hms, bind, Except.bind, pure, Except.pure],
      .cons hname hstands hstand⟩

end

end LineFormat

end CredentialWrites
