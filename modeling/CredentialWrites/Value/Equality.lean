import CredentialWrites.Value.Basic

/-!
# Equality of values

Two values are equal if they are of comparable kinds and have equal parts: numbers by their value
whatever their kind, a list only with a list and a tuple only with a tuple, mappings and views of
them whatever the order of their entries, sets and frozen sets alike, records and models field by
field, other objects only with themselves. What is no number equals nothing, but as a part of
something it is the same as itself.

* `Value.same` : the comparison of parts.
* `Value.eq` : the comparison of two values.
-/

namespace CredentialWrites

namespace Value

/-- The number that a value stands for: a whole number, or one with a fraction or an infinity. -/
def number? : Value → Option (Int ⊕ Double)
  | bool b => some (.inl (if b then 1 else 0))
  | int i => some (.inl i)
  | float x => some (match x.toInt? with
    | some i => .inl i
    | none => .inr x)
  | _ => none

/-- The bytes of a value of bytes. -/
def bytes? : Value → Option (List UInt8)
  | bytes bs => some bs
  | buffer _ bs => some bs
  | _ => none

/-- The comparison of values without parts. -/
def sameAtom : Value → Value → Bool
  | null, null => true
  | nan c, nan d => c == d
  | member m, member n => m == n
  | text s, b => b.text? == some s
  | member m, text s => m.isText && m.token == s
  | a, b =>
    match a.number?, b.number? with
    | some x, some y => x == y
    | _, _ =>
      match a.bytes?, b.bytes? with
      | some x, some y => x == y
      | _, _ => false

mutual

/-- The two values are the same as parts of something. -/
def same : Value → Value → Bool
  | tuple xs, b => match b with
    | tuple ys => sameAll xs ys
    | _ => false
  | list _ xs, b => match b with
    | list _ ys => sameAll xs ys
    | _ => false
  | frozenSet xs, b => match b with
    | frozenSet ys => xs.length == ys.length && eachIn xs ys
    | set _ ys => xs.length == ys.length && eachIn xs ys
    | _ => false
  | set _ xs, b => match b with
    | frozenSet ys => xs.length == ys.length && eachIn xs ys
    | set _ ys => xs.length == ys.length && eachIn xs ys
    | _ => false
  | view es, b => match b with
    | view ds => es.length == ds.length && eachEntryIn es ds
    | map _ ds => es.length == ds.length && eachEntryIn es ds
    | _ => false
  | map _ es, b => match b with
    | view ds => es.length == ds.length && eachEntryIn es ds
    | map _ ds => es.length == ds.length && eachEntryIn es ds
    | _ => false
  | record kind xs, b => match b with
    | record kind' ys => kind == kind' && sameAll xs ys
    | _ => false
  | stream c _, b => match b with
    | stream d _ => c == d
    | _ => false
  | fault _ c _ _, b => match b with
    | fault _ d _ _ => c == d
    | _ => false
  | object kind c xs, b => match b with
    | object kind' d ys => c == d || (kind.isModel && kind == kind' && sameFields kind ys xs)
    | _ => false
  | null, b => sameAtom null b
  | bool x, b => sameAtom (bool x) b
  | int i, b => sameAtom (int i) b
  | float x, b => sameAtom (float x) b
  | nan c, b => sameAtom (nan c) b
  | text s, b => sameAtom (text s) b
  | bytes bs, b => sameAtom (bytes bs) b
  | buffer c bs, b => sameAtom (buffer c bs) b
  | member m, b => sameAtom (member m) b
termination_by structural a => a

/-- The two lists are the same item by item. -/
def sameAll : List Value → List Value → Bool
  | [], ys => ys.isEmpty
  | x :: xs, ys => match ys with
    | [] => false
    | y :: ys => same x y && sameAll xs ys
termination_by structural a => a

/-- Every item of the first list is in the second. -/
def eachIn : List Value → List Value → Bool
  | [], _ => true
  | x :: xs, ys => ys.any (same x) && eachIn xs ys
termination_by structural a => a

/-- Every entry of the first list is in the second. -/
def eachEntryIn : List (Value × Value) → List (Value × Value) → Bool
  | [], _ => true
  | (k, v) :: es, ds => ds.any (fun d => same k d.1 && same v d.2) && eachEntryIn es ds
termination_by structural a => a

/-- Every attribute of the second list that is a field of the model is the same in the first. -/
def sameFields (kind : ObjectKind) (ys : List (String × Value)) : List (String × Value) → Bool
  | [] => true
  | (name, v) :: xs =>
    (!kind.fieldNames.contains name ||
      match ys.lookup name with
      | some w => same v w
      | none => false) && sameFields kind ys xs
termination_by structural a => a

end

/-- The two values are equal. -/
def eq (a b : Value) : Bool :=
  match a with
  | nan _ => false
  | _ => same a b

end Value

end CredentialWrites
