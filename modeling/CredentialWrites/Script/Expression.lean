import CredentialWrites.Script.Function

/-!
# Expressions of a script

An expression says how a value is made. Every evaluation makes new objects; a register stands for
the object that was stored in it, not for a copy.

* `Expr.eval` : the value of an expression.
-/

namespace CredentialWrites

/-- How values are nested by an expression. -/
inductive Nesting where
  | mapping | list | both
deriving Repr, DecidableEq

/-- An expression. -/
inductive Expr where
  /-- A value without objects. -/
  | constant (v : Value)
  | nan
  | list (items : List Expr)
  | map (entries : List (Expr × Expr))
  | view (entries : List (Expr × Expr))
  | tuple (items : List Expr)
  | set (items : List Expr)
  | frozenSet (items : List Expr)
  | stream (items : List Expr)
  | buffer (bs : List UInt8)
  | foreign (kind : ForeignKind)
  | register (name : String)
  | call (function : String) (args : List Expr)
  | repeated (s : String) (count : Nat)
  | nested (nesting : Nesting) (count : Nat) (leaf : Expr)
deriving Repr, Inhabited

/-- The registers of a script. -/
abbrev Registers := List (String × Value)

namespace Registers

/-- The content of a register. -/
def read (registers : Registers) (name : String) : Except Fault Value :=
  match registers.lookup name with
  | some v => .ok v
  | none => .error (.unfilledRegister name)

/-- The registers with a value stored in one. -/
def store (registers : Registers) (name : String) (v : Value) : Registers :=
  (name, v) :: registers.filter fun r => r.1 ≠ name

end Registers

namespace Expr

/-- The key under which a mapping of a nesting holds its only value. -/
def nestingKey : Value := .text "k"

/-- A value wrapped once. -/
def wrap (nesting : Nesting) (v : Value) : Making Value :=
  match nesting with
  | .mapping => Making.map [(nestingKey, v)]
  | .list => Making.list [v]
  | .both => do
    let inner ← Making.list [v]
    Making.map [(nestingKey, inner)]

/-- A value wrapped a number of times. -/
def wrapTimes (nesting : Nesting) : Nat → Value → Making Value
  | 0, v => return v
  | n + 1, v => do
    let v ← wrap nesting v
    wrapTimes nesting n v

mutual

/-- The value of an expression. -/
def eval (registers : Registers) : Expr → Making Value
  | constant v => return v
  | nan => do return .nan (← Making.fresh)
  | list items => do
    let vs ← evalAll registers items
    Making.list vs
  | map entries => do
    let es ← evalEntries registers [] entries
    Making.map es
  | view entries => do return .view (← evalEntries registers [] entries)
  | tuple items => do return .tuple (← evalAll registers items)
  | set items => do
    let vs ← evalMembers registers [] items
    return .set (← Making.fresh) vs
  | frozenSet items => do return .frozenSet (← evalMembers registers [] items)
  | stream items => do
    let vs ← evalAll registers items
    return .stream (← Making.fresh) vs
  | buffer bs => do return .buffer (← Making.fresh) bs
  | foreign kind => Making.object (.foreign kind) []
  | register name => do return ← registers.read name
  | call function args => do
    let vs ← evalAll registers args
    Function.call function ⟨vs, []⟩
  | repeated s count => return .text (String.join (List.replicate count s))
  | nested nesting count leaf => do
    let v ← eval registers leaf
    wrapTimes nesting count v

/-- The values of some expressions, from left to right. -/
def evalAll (registers : Registers) : List Expr → Making (List Value)
  | [] => return []
  | e :: es => do
    let v ← eval registers e
    return v :: (← evalAll registers es)

/-- The members of a set with the values of some expressions put in, from left to right. -/
def evalMembers (registers : Registers) (members : List Value) : List Expr → Making (List Value)
  | [] => return members
  | e :: es => do
    let v ← eval registers e
    evalMembers registers (← Value.insert v members) es

/-- The entries of a mapping with the values of pairs of expressions put in, from left to right. -/
def evalEntries (registers : Registers) (entries : List (Value × Value)) :
    List (Expr × Expr) → Making (List (Value × Value))
  | [] => return entries
  | (k, e) :: es => do
    let k ← eval registers k
    let v ← eval registers e
    evalEntries registers (← Value.put k v entries) es

end

/-- The values of named expressions, from left to right. -/
def evalNamed (registers : Registers) : List (String × Expr) → Making (List (String × Value))
  | [] => return []
  | (name, e) :: es => do
    let v ← eval registers e
    return (name, v) :: (← evalNamed registers es)

end Expr

end CredentialWrites
