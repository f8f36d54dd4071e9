import CredentialWrites.Proofs.Request.Given
import CredentialWrites.Proofs.Script.Keeps
import CredentialWrites.Proofs.Value.Document
import CredentialWrites.Proofs.Value.ReadOnly

/-!
# The value of a request is read-only

No path into the value of a built request leads to anything that takes a change, unless the mapping
that it was given holds bytes that can be changed. In a session, an attempt to change anything else
fails and leaves every register as it is, and with it the request, whatever it is compared with and
the mapping that it is rendered as.

* `Session.attempt` : a step that tries to change the value in a register.
* `Session.keeps_change` : such a step fails if the value is frozen and holds no such bytes.
* `RequestBuilder.readOnly_of_run` : the values of requests that were built in a run.
-/

namespace CredentialWrites

namespace Session

open Run

/-- An attempt, with values at hand, to change an item at the end of a path from a register. -/
structure Attempt where
  on : String
  path : List Value
  change : Value.ItemChange
  quiet : Bool

/-- The change of an attempt. -/
def Attempt.expr (a : Attempt) : Change :=
  match a.change with
  | .set key new => .set (.constant key) (.constant new)
  | .delete key => .delete (.constant key)
  | .append new => .append (.constant new)

/-- The step that an attempt is. -/
def Attempt.step (a : Attempt) : ScriptStep :=
  ⟨.change a.on (a.path.map .constant) a.expr, a.quiet⟩

/-- The evaluation of some expressions keeps an invariant. -/
def EvalKeeps (I : Session → Prop) (es : List Expr) : Prop :=
  ∀ e ∈ es, ∀ p : Progress, I p.session → (eval e).Keeps p I fun _ _ => True

variable {I : Session → Prop} {p : Progress} {v : Value}

theorem EvalKeeps.head {e : Expr} {es : List Expr} (h : EvalKeeps I (e :: es)) (hI : I p.session) :
    (eval e).Keeps p I fun _ _ => True :=
  h e (List.mem_cons_self ..) p hI

theorem EvalKeeps.tail {e : Expr} {es : List Expr} (h : EvalKeeps I (e :: es)) : EvalKeeps I es :=
  fun e' he' => h e' (List.mem_cons_of_mem _ he')

/-- A path from a frozen value leads to a frozen value. -/
theorem keeps_along {path : List Expr} (hpath : EvalKeeps I path) (hv : v.isFrozen false)
    (hI : I p.session) : (along v path).Keeps p I fun _ w => w.isFrozen false := by
  induction path generalizing v p with
  | nil => exact keeps_pure hI hv
  | cons e path ih =>
    refine (hpath.head hI).bind fun key q hIq _ => ?_
    have hitem : (make (liftM (v.item key))).Keeps q I fun _ w => w.isFrozen false :=
      keeps_lift hIq fun w hw => Value.isFrozen_of_item hv hw
    refine hitem.bind fun w r hIr hw => ?_
    exact ih hpath.tail hw hIr

/-- A frozen value takes no change. -/
theorem keeps_changed {c : Change} (hc : EvalKeeps I c.exprs) (hv : v.isFrozen false)
    (hI : I p.session) : (changed v c).Keeps p I fun _ _ => False := by
  have hrefused (change : Value.ItemChange) (w : Value) (h : v.changed change = .ok w) : False :=
    Bool.false_ne_true (Value.isBuffer_of_changed hv h).1
  cases c with
  | set key value =>
    refine (hc.tail.head hI).bind fun new q hIq _ => ?_
    refine (hc.head hIq).bind fun key r hIr _ => ?_
    exact keeps_lift hIr fun w hw => hrefused (.set key new) w hw
  | delete key =>
    refine (hc.head hI).bind fun key q hIq _ => ?_
    exact keeps_lift hIq fun w hw => hrefused (.delete key) w hw
  | append value =>
    dsimp only [changed]
    split
    · exact (hc.head hI).bind fun _ q hIq _ => keeps_throw hIq
    · exact keeps_throw hI
    · refine (hc.head hI).bind fun new q hIq _ => ?_
      exact keeps_lift hIq fun w hw => hrefused (.append new) w hw

/-- An attempt to change a frozen value fails, and keeps what the evaluation of its expressions
keeps. -/
theorem keeps_change {on : String} {path : List Expr} {c : Change} (hpath : EvalKeeps I path)
    (hc : EvalKeeps I c.exprs) (hread : p.session.registers.lookup on = some v)
    (hv : v.isFrozen false)
    (hI : I p.session) : (change on path c).Keeps p I fun _ _ => False := by
  refine (keeps_read hI).bind fun w q hIq hw => ?_
  obtain rfl : v = w := Option.some.inj (hread.symm.trans hw.2)
  refine (keeps_along hpath hv hIq).bind fun container r hIr hcontainer => ?_
  exact (keeps_changed hc hcontainer hIr).bind fun _ _ _ h => h.elim

/-- The evaluation of an expression leaves the registers as they are. -/
theorem evalKeeps_registers (registers : Registers) (es : List Expr) :
    EvalKeeps (fun s => s.registers = registers) es :=
  fun _ _ _ hI => keeps_eval (keeps_make (fun _ _ => hI) fun _ _ _ => trivial)

/-- The evaluation of values at hand leaves the session as it is. -/
theorem evalKeeps_constants (s : Session) {es : List Expr} (hes : ∀ e ∈ es, ∃ v, e = .constant v) :
    EvalKeeps (· = s) es := by
  intro e he p hI
  obtain ⟨v, rfl⟩ := hes e he
  refine keeps_eval (keeps_make (fun made hmade => ?_) fun _ _ _ => trivial)
  obtain rfl : made = p.session.made := hmade
  exact hI

theorem Attempt.constants (a : Attempt) :
    (∀ e ∈ a.path.map Expr.constant, ∃ v, e = .constant v) ∧ ∀ e ∈ a.expr.exprs, ∃ v,
      e = .constant v := by
  refine ⟨fun e he => ?_, ?_⟩
  · obtain ⟨v, -, rfl⟩ := List.mem_map.1 he
    exact ⟨v, rfl⟩
  · obtain ⟨on, path, change, quiet⟩ := a
    cases change <;> simp [Attempt.expr, Change.exprs]

/-- A step that tries to change a frozen value fails, and keeps what the evaluation of its
expressions keeps. -/
theorem step_of_change {s : Session} {t : ScriptStep} {on : String} {path : List Expr} {c : Change}
    (hact : t.action = .change on path c) (hpath : EvalKeeps I path) (hc : EvalKeeps I c.exprs)
    (hread : s.registers.lookup on = some v) (hv : v.isFrozen false) (hI : I s) :
    I (s.step t).1 ∧ ∃ f, (s.step t).2.outcome = .error f := by
  have hkeeps : (act t.action).Keeps ⟨s, [], []⟩ I fun _ _ => False := by
    rw [hact]
    exact keeps_change hpath hc hread hv hI
  exact ⟨step_of_keeps hkeeps, outcome_of_keeps hkeeps⟩

/-- Attempts to change a frozen value fail and leave every register as it is, whatever their
expressions make or take. -/
theorem forall_changes_fail {s : Session} {ts : List ScriptStep} (hv : v.isFrozen false)
    (hts : ∀ t ∈ ts, ∃ on path c, t.action = .change on path c ∧ s.registers.lookup on = some v) :
    ∀ x ∈ s.run ts, x.1.registers = s.registers ∧ ∃ f, x.2.outcome = .error f := by
  refine forall_mem_run (I := fun s' => s'.registers = s.registers)
    (R := fun r => ∃ f, r.outcome = .error f) (fun s' t ht hI => ?_) rfl
  obtain ⟨on, path, c, hact, hread⟩ := hts t ht
  exact step_of_change hact (evalKeeps_registers _ _) (evalKeeps_registers _ _) (hI ▸ hread) hv hI

/-- Attempts with values at hand leave the whole session as it is. -/
theorem forall_attempts_fail {s : Session} {attempts : List Attempt} (hv : v.isFrozen false)
    (hon : ∀ a ∈ attempts, s.registers.lookup a.on = some v) :
    ∀ x ∈ s.run (attempts.map Attempt.step), x.1 = s ∧ ∃ f, x.2.outcome = .error f := by
  refine forall_mem_run (I := (· = s)) (R := fun r => ∃ f, r.outcome = .error f)
    (fun s' t ht hI => ?_) rfl
  obtain ⟨a, ha, rfl⟩ := List.mem_map.1 ht
  obtain ⟨hpath, hexpr⟩ := a.constants
  exact step_of_change rfl (evalKeeps_constants s hpath) (evalKeeps_constants s hexpr)
    (hI ▸ hon a ha) hv hI

end Session

namespace RequestBuilder

open Making

variable {turns : List Turn} {before after : List Event} {e : Event}

/-- The value of a request that was given data is frozen. -/
theorem isFrozen_of_built (h : run turns = before ++ e :: after) {r : Request}
    (hr : e.answer = .built r) {es : List (Value × Value)} (hvalue : r.value = some (.json es))
    {buffers : Bool}
    (hgiven : (given before).isData buffers) : (Value.view es).isFrozen buffers := by
  have hmade := madeFrom_of_built h hr
  unfold given at hgiven
  rw [hvalue] at hmade
  generalize (before.filterMap Event.given?).getLast? = o at hmade hgiven
  cases hmade with
  | some hmade =>
    cases hmade with
    | json hfreeze =>
      exact Value.isFrozen_of_gives_freeze hgiven
        (Value.gives_freeze_of_gives_freezeMapping hfreeze)

/-- **The value of a request is read-only but for bytes that can be changed.** Let a request be
given data, nested from mappings, sequences and sets down to leaves without parts. A path from its
value leads to something that takes a change exactly if it leads to bytes that can be changed, of
which there are none unless the data has some. If it has none, then in every session all attempts to
put, remove or append an item along any path from the value fail. They leave every register as it
is, whatever their keys and values make or take, and the whole session if these are at hand; so what
the request is equal to and what it is rendered as is the same after them. -/
theorem readOnly_of_run (h : run turns = before ++ e :: after) {r : Request}
    (hr : e.answer = .built r)
    {es : List (Value × Value)} (hvalue : r.value = some (.json es))
    (hgiven : (given before).isData true) :
    (∀ path w, (Value.view es).itemAlong path = .ok w →
        ((∃ change w', w.changed change = .ok w') ↔ ∃ cell bs, w = .buffer cell bs)) ∧
      ((given before).isData false → ∀ s : Session,
        (∀ ts : List ScriptStep, (∀ t ∈ ts, ∃ on path c, t.action = .change on path c ∧
            s.registers.lookup on = some (.view es)) →
          ∀ x ∈ s.run ts, x.1.registers = s.registers ∧ ∃ f, x.2.outcome = .error f) ∧
        ∀ attempts : List Session.Attempt,
          (∀ a ∈ attempts, s.registers.lookup a.on = some (.view es)) →
          ∀ x ∈ s.run (attempts.map Session.Attempt.step), x.1 = s ∧
            ∃ f, x.2.outcome = .error f) := by
  refine ⟨fun path w hw => ?_, fun hstill s => ?_⟩
  · have hfrozen := isFrozen_of_built h hr hvalue hgiven
    exact Value.exists_changed_iff (Value.isFrozen_of_itemAlong hfrozen hw)
  · have hfrozen := isFrozen_of_built h hr hvalue hstill
    exact ⟨fun ts hts => Session.forall_changes_fail hfrozen hts,
      fun attempts hon => Session.forall_attempts_fail hfrozen hon⟩

/-- A document with a list and a set in it. -/
def listedDocument : Value :=
  .map [0] [(.text "k", .list [1] [.int 1, .set [2] [.null]])]

/-- A session with the value of a request in a register. -/
def sessionWith (es : List (Value × Value)) : Session :=
  { Session.start ⟨[], none⟩ ⟨2024, 1, 2, 3, 4, 5, 0⟩ true with registers := [("v", .view es)] }

/-- Nothing can be appended to what was the list of a document, nor to what was the set in it. -/
theorem readOnly_of_run_of_listedDocument :
    ∃ before e r es, run [⟨.call (.jsonValue listedDocument), ⟨3, []⟩⟩, ⟨.build, ⟨5, []⟩⟩] =
        before ++ e :: [] ∧
      e.answer = .built r ∧ r.value = some (.json es) ∧
      (¬ ∃ change w, (Value.tuple [.int 1, .frozenSet [.null]]).changed change = .ok w) ∧
      ∀ x ∈ (sessionWith es).run ([⟨"v", [.text "k"], .append .null, false⟩,
          ⟨"v", [.text "k", .int 1], .append .null, true⟩].map Session.Attempt.step),
        x.1 = sessionWith es ∧ ∃ f, x.2.outcome = .error f := by
  have key (turns : List Turn) (h : ∃ before e r es, run turns = before ++ e :: [] ∧
      e.answer = .built r ∧ r.value = some (.json es) ∧ given before = listedDocument ∧
      (Value.view es).itemAlong [.text "k"] = .ok (.tuple [.int 1, .frozenSet [.null]])) :
      ∃ before e r es, run turns = before ++ e :: [] ∧ e.answer = .built r ∧
      r.value = some (.json es) ∧
        (¬ ∃ change w, (Value.tuple [.int 1, .frozenSet [.null]]).changed change = .ok w) ∧
        ∀ x ∈ (sessionWith es).run ([⟨"v", [.text "k"], .append .null, false⟩,
            ⟨"v", [.text "k", .int 1], .append .null, true⟩].map Session.Attempt.step),
          x.1 = sessionWith es ∧ ∃ f, x.2.outcome = .error f := by
    obtain ⟨before, e, r, es, hrun, hr, hvalue, hgiven, hitem⟩ := h
    obtain ⟨hpaths, hsessions⟩ := readOnly_of_run hrun hr hvalue (hgiven ▸ rfl)
    refine ⟨before, e, r, es, hrun, hr, hvalue, fun hchange => ?_, ?_⟩
    · obtain ⟨cell, bs, heq⟩ := (hpaths _ _ hitem).1 hchange
      cases heq
    · exact (hsessions (hgiven ▸ rfl) (sessionWith es)).2 _ (by simp [sessionWith])
  exact key _ ⟨[_], _, _, _, rfl, rfl, rfl, rfl, rfl⟩

end RequestBuilder

end CredentialWrites
