import CredentialWrites.Proofs.Value.Canonical

/-!
# What stands where in a thawed snapshot

A position in nested data is told by a path: at each step, the place of an entry whose value is
meant, or the place of an item. Keys of mappings and members of sets are at no position. A snapshot
has the positions of the data that it was made from, and so has what it is thawed to. At each of
them a mapping has become a new mapping under the same keys, and a list or a tuple a new list. A set
does not come back: it was frozen, and thawing copies a frozen set as it is.

* `Value.at?` : what stands at a position.
* `Value.at?_reshape` : data in another form have the same positions.
* `Value.ThawsTo` : what stands in a thawed snapshot in the place of a value.
* `Value.thawed_positions` : the positions of a thawed snapshot, and which of them hold what cannot
  be changed.
-/

namespace CredentialWrites

namespace Value

open Making

/-! ### Positions -/

/-- The items of a list or a tuple. -/
def sequence? : Value → Option (List Value)
  | list _ items => some items
  | tuple items => some items
  | _ => none

/-- The values right below a value: those of the entries of a mapping, or the items of a
sequence. -/
def inner (v : Value) : List Value :=
  match v.entries? with
  | some es => es.map Prod.snd
  | none => v.sequence?.getD []

/-- What stands at a position. -/
def at? (v : Value) : List Nat → Option Value
  | [] => some v
  | i :: path => v.inner[i]?.bind fun w => w.at? path

/-- The value is a container that cannot be changed. -/
def isReadOnly : Value → Bool
  | view _ => true
  | tuple _ => true
  | frozenSet _ => true
  | _ => false

variable {m v w : Value} {items : List Value} {path : List Nat}

theorem reshapeAll_eq_map (f : Form) (vs : List Value) : reshapeAll f vs = vs.map (reshape f) := by
  induction vs with
  | nil => rfl
  | cons v vs ih => rw [reshapeAll, ih, List.map_cons]

theorem inner_mappingAs (kind : Option Bool) (readOnly : Bool) (es : List (Value × Value)) :
    (mappingAs kind readOnly es).inner = es.map Prod.snd := by
  rw [mappingAs]
  split <;> rfl

theorem inner_sequenceAs (kind : Option Bool) (readOnly : Bool) (items : List Value) :
    (sequenceAs kind readOnly items).inner = items := by
  rw [sequenceAs]
  split <;> rfl

theorem inner_setAs (kind : Option Bool) (readOnly : Bool) (items : List Value) :
    (setAs kind readOnly items).inner = [] := by
  rw [setAs]
  split <;> rfl

/-- What is right below data in a form is in that form. -/
theorem inner_reshape (f : Form) (v : Value) : (v.reshape f).inner = v.inner.map (reshape f) := by
  cases v with
  | view es | map _ es =>
    rw [reshape, inner_mappingAs, reshapeEntries_eq_map, inner, entries?,
      List.map_map, List.map_map]
    rfl
  | tuple items | list _ items => rw [reshape, inner_sequenceAs, reshapeAll_eq_map]; rfl
  | frozenSet items | set _ items => rw [reshape, inner_setAs]; rfl
  | _ => rfl

/-- Data in another form have the same positions, and at each of them the same in that form. -/
theorem at?_reshape (f : Form) (v : Value) (path : List Nat) :
    (v.reshape f).at? path = (v.at? path).map (reshape f) := by
  induction path generalizing v with
  | nil => rfl
  | cons i path ih =>
    rw [at?, at?, inner_reshape, List.getElem?_map]
    cases v.inner[i]? with
    | none => rfl
    | some w => exact ih w

/-- What has the outline of data in a form has that outline at every position. -/
theorem at?_of_outline {f : Form} (h : w.outline = v.reshape f) (path : List Nat) :
    (w.at? path).map outline = (v.at? path).map (reshape f) := by
  rw [← at?_reshape, ← h, outline, at?_reshape]
  rfl

theorem inner_of_isScalar (h : v.isScalar) : v.inner = [] := by
  cases v <;> first | rfl | cases h

theorem inner_of_members (h : v.members? = some items) : v.inner = [] := by
  cases v <;> cases h <;> rfl

/-- What is right below data is data. -/
theorem Data.of_mem_inner (hv : Data v) (hw : w ∈ v.inner) : Data w := by
  cases hv with
  | scalar h =>
    rw [inner_of_isScalar h] at hw
    cases hw
  | buffer c bs => cases hw
  | tuple h | list h => exact h w hw
  | members hv' _ _ =>
    rw [inner_of_members hv'] at hw
    cases hw
  | entries hv' _ h =>
    rw [inner, hv'] at hw
    obtain ⟨e, he, rfl⟩ := List.mem_map.1 hw
    exact h e he

/-- What stands at a position of data is data. -/
theorem Data.at? (hv : Data v) (hw : v.at? path = some w) : Data w := by
  induction path generalizing v with
  | nil =>
    obtain rfl := Option.some.inj hw
    exact hv
  | cons i path ih =>
    obtain ⟨u, hu, hw⟩ := Option.bind_eq_some_iff.1 hw
    exact ih (hv.of_mem_inner (List.mem_of_getElem? hu)) hw

/-! ### Thawed snapshots -/

/-- What stands in a thawed snapshot in the place of a value: a new mapping under the same keys, a
new list of as many items, a frozen set of the same members, other bytes that can be changed, or the
value itself. -/
inductive ThawsTo : Value → Value → Prop where
  | mapping {v : Value} {es es' : List (Value × Value)} (c : Cell) (hv : v.entries? = some es)
    (hkeys : es'.map Prod.fst = es.map Prod.fst) : ThawsTo v (.map c es')
  | sequence {v : Value} {items items' : List Value} (c : Cell) (hv : v.sequence? = some items)
    (hlength : items'.length = items.length) : ThawsTo v (.list c items')
  | members {v : Value} {items : List Value} (hv : v.members? = some items) :
      ThawsTo v (.frozenSet items)
  | buffer (c c' : Cell) (bs : List UInt8) : ThawsTo (.buffer c bs) (.buffer c' bs)
  | scalar {v : Value} (hv : v.isScalar) : ThawsTo v v

theorem ThawsTo.eq_list (h : ThawsTo v w) (hv : v.sequence? = some items) :
    ∃ c items', w = .list c items' ∧ items'.length = items.length := by
  cases h with
  | sequence c hv' hlength =>
    obtain rfl := Option.some.inj (hv.symm.trans hv')
    exact ⟨c, _, rfl, hlength⟩
  | mapping _ hv' _ | members hv' => cases v <;> cases hv <;> cases hv'
  | buffer _ _ _ => cases hv
  | scalar hv' => cases v <;> cases hv <;> cases hv'

theorem ThawsTo.eq_frozenSet (h : ThawsTo v w) (hv : v.members? = some items) :
    w = .frozenSet items := by
  cases h with
  | members hv' => rw [Option.some.inj (hv.symm.trans hv')]
  | mapping _ hv' _ | sequence _ hv' _ => cases v <;> cases hv <;> cases hv'
  | buffer _ _ _ => cases hv
  | scalar hv' => cases v <;> cases hv <;> cases hv'

/-- Only a set becomes something that cannot be changed. -/
theorem ThawsTo.isReadOnly_eq (h : ThawsTo v w) : w.isReadOnly = v.members?.isSome := by
  cases h with
  | mapping _ hv _ | sequence _ hv _ | members hv => cases v <;> cases hv <;> rfl
  | buffer _ _ _ => rfl
  | scalar hv => cases v <;> first | rfl | cases hv

/-- What stands at a position of data has something in its place. -/
theorem exists_thawsTo {o : Option Value} (h : Option.Rel ThawsTo (m.at? path) o)
    (hv : m.at? path = some v) : ∃ w, o = some w ∧ ThawsTo v w := by
  rw [hv] at h
  obtain ⟨h⟩ := h
  exact ⟨_, rfl, h⟩

theorem eq_map_of_outline {es : List (Value × Value)} (h : w.outline = map [] es) :
    ∃ c es', w = map c es' ∧ es'.map Prod.fst = es.map Prod.fst := by
  cases w with
  | map c es' =>
    obtain rfl : reshapeEntries .kept es' = es := by injection h
    refine ⟨c, es', rfl, ?_⟩
    rw [reshapeEntries_eq_map, List.map_map]
    rfl
  | _ => cases h

theorem eq_list_of_outline (h : w.outline = list [] items) :
    ∃ c items', w = list c items' ∧ items'.length = items.length := by
  cases w with
  | list c items' =>
    obtain rfl : reshapeAll .kept items' = items := by injection h
    exact ⟨c, items', rfl, by rw [reshapeAll_eq_map, List.length_map]⟩
  | _ => cases h

theorem eq_frozenSet_of_outline (h : w.outline = frozenSet items) : w = frozenSet items := by
  cases w with
  | frozenSet items' => exact h
  | _ => cases h

theorem eq_buffer_of_outline {bs : List UInt8} (h : w.outline = buffer [] bs) :
    ∃ c, w = buffer c bs := by
  cases w with
  | buffer c bs' =>
    obtain rfl : bs' = bs := by injection h
    exact ⟨c, rfl⟩
  | _ => cases h

theorem eq_of_outline_eq_scalar (h : w.outline = v) (hv : v.isScalar) : w = v := by
  subst h
  cases w <;> first | rfl | cases hv

/-- What has the outline of thawed frozen data is what stands there in the place of the data. -/
theorem Data.thawsTo (hv : Data v) (h : w.outline = v.reshape (Form.thawed.after .frozen)) :
    ThawsTo v w := by
  cases hv with
  | scalar hv =>
    rw [reshape_of_isScalar hv] at h
    obtain rfl := eq_of_outline_eq_scalar h hv
    exact .scalar hv
  | buffer c bs =>
    obtain ⟨c', rfl⟩ := eq_buffer_of_outline h
    exact .buffer c c' bs
  | tuple _ | list _ =>
    obtain ⟨c', items', rfl, hlength⟩ := eq_list_of_outline h
    rw [reshapeAll_eq_map, List.length_map] at hlength
    exact .sequence c' rfl hlength
  | @members v items hv' _ _ =>
    have hset : v.reshape (Form.thawed.after .frozen) = frozenSet items := by
      cases v <;> cases hv' <;> rfl
    obtain rfl := eq_frozenSet_of_outline (h.trans hset)
    exact .members hv'
  | @entries v es hv' _ _ =>
    have hmapping : v.reshape (Form.thawed.after .frozen) =
        map [] (reshapeEntries (Form.thawed.after .frozen) es) := by
      cases v <;> cases hv' <;> rfl
    obtain ⟨c', es', rfl, hkeys⟩ := eq_map_of_outline (h.trans hmapping)
    refine .mapping c' hv' (hkeys.trans ?_)
    rw [reshapeEntries_eq_map, List.map_map]
    rfl

/-- **What stands where in a thawed snapshot.** Every mapping of data can be frozen and thawed
again, and then has the positions that it had. At each of them a mapping stands for a mapping, under
the same keys, and a list for a list or a tuple; what has no parts stays. A set or a frozen set
stays a frozen set, so that nothing at any position is a view, a tuple or a frozen set exactly if no
position of the data held a set. -/
theorem thawed_positions (hm : Data m) (hmapping : m.entries?.isSome) :
    (freezeMapping m).Always fun f => (thaw f).Always fun p =>
      (∀ path, Option.Rel ThawsTo (m.at? path) (p.at? path)) ∧
      ((∀ path w, p.at? path = some w → ¬ w.isReadOnly) ↔
        ∀ path v, m.at? path = some v → v.members? = none) := by
  refine (hm.frozenMapping hmapping).mono fun f hf => hf.data.thawed.mono fun p hp => ?_
  have houtline : p.outline = m.reshape (Form.thawed.after .frozen) := by
    rw [hp.outline, reshape_of_outline hf.outline]
  have hrel (path : List Nat) : Option.Rel ThawsTo (m.at? path) (p.at? path) := by
    have hpath := at?_of_outline houtline path
    cases hv : m.at? path with
    | none =>
      rw [hv] at hpath
      rw [Option.map_eq_none_iff.1 hpath]
      exact .none
    | some v =>
      rw [hv] at hpath
      obtain ⟨w, hw, houtline'⟩ := Option.map_eq_some_iff.1 hpath
      rw [hw]
      exact .some ((hm.at? hv).thawsTo houtline')
  refine ⟨hrel, fun h path v hv => ?_, fun h path w hw => ?_⟩
  · -- a set would stand there as a frozen set
    obtain ⟨w, hw, hthaws⟩ := exists_thawsTo (hrel path) hv
    simpa [hthaws.isReadOnly_eq] using h path w hw
  · have hpath := hrel path
    rw [hw] at hpath
    generalize hv : m.at? path = o at hpath
    obtain ⟨hthaws⟩ := hpath
    simp [hthaws.isReadOnly_eq, h path _ hv]

/-- In a mapping of all kinds of data, the set within a list ends as a frozen set, and so does the
empty one within a tuple within a view, while that tuple has become a list. -/
theorem thawed_positions_of_mixedMapping :
    (freezeMapping mixedMapping).Always fun f => (thaw f).Always fun p =>
      p.at? [0, 0] = some (.frozenSet [.tuple [.int 1, .text "x"], .frozenSet [.null]]) ∧
      p.at? [1, 0, 1] = some (.frozenSet []) ∧
      (∃ c items, p.at? [1, 0] = some (.list c items) ∧ items.length = 2) ∧
      ¬ ∀ path w, p.at? path = some w → ¬ w.isReadOnly := by
  refine (thawed_positions data_mixedMapping rfl).mono fun f hf => hf.mono fun p ⟨hrel, hiff⟩ => ?_
  have hset (path : List Nat) {v : Value} {items : List Value} (hv : mixedMapping.at? path = some v)
      (hitems : v.members? = some items) : p.at? path = some (.frozenSet items) := by
    obtain ⟨w, hw, hthaws⟩ := exists_thawsTo (hrel path) hv
    rw [hw, hthaws.eq_frozenSet hitems]
  refine ⟨hset _ rfl rfl, hset _ rfl rfl, ?_, fun h => ?_⟩
  · obtain ⟨w, hw, hthaws⟩ := exists_thawsTo (hrel [1, 0]) rfl
    obtain ⟨c, items, rfl, hlength⟩ := hthaws.eq_list rfl
    exact ⟨c, items, hw, hlength⟩
  · -- the set within the list is no longer one
    exact absurd (hiff.1 h [0, 0] _ rfl) (by decide)

end Value

end CredentialWrites
