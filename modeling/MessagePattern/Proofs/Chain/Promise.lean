import Mathlib.Data.List.Forall2
import MessagePattern.Chain.Basic
import MessagePattern.Proofs.Match.Step

/-!
# Promises in a chain

A chain can be run with promises awaited, or without. Awaited, a promise is worth the work
behind it: the run is that of the plain handlers that the promises stand for, with the same work
on the same values and the same answer (`runHandlers_of_doesWorkOf`). Not awaited, a promise ends
the run. What decides is what a call of a handler gives at once (`Handler.reply`). An eager
handler has done its work when it answers with a promise, and fails when it is called; a deferred
one has not begun, and its failure is never seen.
-/

namespace MessagePattern

/-! ## What a call gives at once -/

/-- What a call of a handler gives at once. -/
inductive Handler.Reply where
  | value (v : Value)
  | promise
  | fault (f : HandlerFault)

namespace Handler

def reply (h : Handler) (values : List Value) : Reply :=
  match h.form, h.call values with
  | .deferred, _ => .promise
  | _, .error fault => .fault fault
  | .plain, .ok v => .value v
  | .eager, .ok _ => .promise

/-- A plain handler answers with what its work comes to. -/
theorem reply_of_plain {h : Handler} (hplain : h.form = .plain) (values : List Value) :
    h.reply values =
      match h.call values with
      | .error fault => .fault fault
      | .ok v => .value v := by
  rw [reply, hplain]
  cases h.call values <;> rfl

theorem reply_ne_promise {h : Handler} (hplain : h.form = .plain) (values : List Value) :
    h.reply values ≠ .promise := by
  rw [reply_of_plain hplain]
  cases h.call values <;> exact nofun

theorem call_of_reply_value {h : Handler} {values : List Value} {v : Value}
    (hreply : h.reply values = .value v) : h.call values = .ok v := by
  unfold reply at hreply
  split at hreply <;> cases hreply
  assumption

theorem call_of_reply_fault {h : Handler} {values : List Value} {fault : HandlerFault}
    (hreply : h.reply values = .fault fault) : h.call values = .error fault := by
  unfold reply at hreply
  split at hreply <;> cases hreply
  assumption

/-- The handler, of whatever form, does the work of a plain one. -/
structure DoesWorkOf (h inner : Handler) : Prop where
  plain : inner.form = .plain
  call_eq : h.call = inner.call

theorem doesWorkOf_self {h : Handler} (hplain : h.form = .plain) : h.DoesWorkOf h :=
  ⟨hplain, rfl⟩

theorem doesWorkOf_deferred {inner : Handler} (hplain : inner.form = .plain) :
    (deferred inner).DoesWorkOf inner :=
  ⟨hplain, rfl⟩

theorem doesWorkOf_eager {inner : Handler} (hplain : inner.form = .plain) :
    (eager inner).DoesWorkOf inner :=
  ⟨hplain, rfl⟩

end Handler

namespace Chain

/-- The work of handlers in turn, from the first one on, on the values that each was given. -/
def workOf (handlers : List Handler) (given : List (List Value)) : List ChainCall :=
  List.zipWith (fun h values => ⟨h.name, values⟩) handlers given

/-- A run without awaiting calls the first of these handlers with these values: all handlers
before it have answered with a value. -/
inductive ComesTo (c : Chain) (message : Value) : List Handler → List Value → Prop
  | first {answer : Option MatchResult} (hresult : c.result message = .ok answer) :
      ComesTo c message c.handlers (firstArguments answer)
  | next {h : Handler} {rest : List Handler} {values : List Value} {v : Value}
      (hbefore : ComesTo c message (h :: rest) values) (hreply : h.reply values = .value v) :
      ComesTo c message rest [v]

variable {c c' : Chain} {message : Value} {h : Handler} {rest handlers inner : List Handler}
  {values : List Value}

/-! ## One handler of a run -/

theorem runHandlers_awaiting_cons :
    c.runHandlers .awaiting message (h :: rest) values =
      match h.call values with
      | .error fault => ⟨[⟨h.name, values⟩], .error (.handler fault)⟩
      | .ok v =>
        let more := c.runHandlers .awaiting message rest [v]
        { more with calls := ⟨h.name, values⟩ :: more.calls } := by
  rw [runHandlers]
  cases h.call values <;> simp

theorem runHandlers_immediate_cons :
    c.runHandlers .immediate message (h :: rest) values =
      match h.reply values with
      | .fault fault => ⟨[⟨h.name, values⟩], .error (.handler fault)⟩
      | .promise =>
        ⟨if h.form = .eager then [⟨h.name, values⟩] else [], c.promised message h⟩
      | .value v =>
        let more := c.runHandlers .immediate message rest [v]
        { more with calls := ⟨h.name, values⟩ :: more.calls } := by
  rw [runHandlers, Handler.reply]
  cases hform : h.form <;> cases h.call values <;> simp

theorem workOf_cons (given : List (List Value)) :
    workOf (h :: rest) (values :: given) = ⟨h.name, values⟩ :: workOf rest given := rfl

/-! ## Runs -/

/-- A run that awaits does the work of the plain handlers behind the promises, and so does a run
of these that does not await, on the same values and with the same answer. -/
theorem runHandlers_of_doesWorkOf (hwork : List.Forall₂ Handler.DoesWorkOf handlers inner)
    (values : List Value) :
    ∃ given answer, given.length ≤ handlers.length ∧
      c.runHandlers .awaiting message handlers values = ⟨workOf handlers given, answer⟩ ∧
      c'.runHandlers .immediate message inner values = ⟨workOf inner given, answer⟩ := by
  induction hwork generalizing values with
  | nil => exact ⟨[], .ok values, Nat.le_refl 0, rfl, rfl⟩
  | @cons h h' rest rest' hdoes _ ih =>
      rw [runHandlers_awaiting_cons, runHandlers_immediate_cons,
        Handler.reply_of_plain hdoes.plain, ← hdoes.call_eq]
      cases h.call values with
      | error fault =>
          exact ⟨[values], .error (.handler fault), Nat.succ_le_succ (Nat.zero_le _), by
            simp [workOf], by simp [workOf]⟩
      | ok v =>
          obtain ⟨given, answer, hlength, hawaiting, himmediate⟩ := ih [v]
          refine ⟨values :: given, answer, Nat.succ_le_succ hlength, ?_, ?_⟩
          · simp only [hawaiting, workOf_cons]
          · simp only [himmediate, workOf_cons]

theorem run_of_result {answer : Option MatchResult} (hresult : c.result message = .ok answer)
    (mode : ChainMode) :
    c.run mode message = c.runHandlers mode message c.handlers (firstArguments answer) := by
  rw [run, hresult]

/-- Where no handler that is called answers with a promise, it does not matter whether promises
are awaited. -/
theorem ComesTo.runHandlers_eq (hcomes : c.ComesTo message handlers values)
    (hnone : ∀ h rest values, c.ComesTo message (h :: rest) values → h.reply values ≠ .promise) :
    c.runHandlers .immediate message handlers values =
      c.runHandlers .awaiting message handlers values := by
  induction handlers generalizing values with
  | nil => rfl
  | cons h rest ih =>
      rw [runHandlers_immediate_cons, runHandlers_awaiting_cons]
      -- Only what the run comes to is known to be no promise, so `hcomes` goes along.
      cases hreply : h.reply values with
      | promise => exact absurd hreply (hnone h rest values hcomes)
      | fault fault => rw [Handler.call_of_reply_fault hreply]
      | value v =>
          rw [Handler.call_of_reply_value hreply]
          simp only [ih (hcomes.next hreply)]

/-- A run that does not await has done the work of all handlers before the one it comes to. -/
theorem ComesTo.run_eq (hcomes : c.ComesTo message rest values) :
    ∃ front given, c.handlers = front ++ rest ∧ given.length = front.length ∧
      c.run .immediate message =
        let more := c.runHandlers .immediate message rest values
        { more with calls := workOf front given ++ more.calls } := by
  induction hcomes with
  | first hresult => exact ⟨[], [], rfl, rfl, run_of_result hresult .immediate⟩
  | @next h rest values v _ hreply ih =>
      obtain ⟨front, given, hhandlers, hlength, hrun⟩ := ih
      refine ⟨front ++ [h], given ++ [values], ?_, ?_, ?_⟩
      · rw [hhandlers, List.append_assoc, List.singleton_append]
      · rw [List.length_append, List.length_append, hlength]
        rfl
      · have hwork : workOf (front ++ [h]) (given ++ [values]) =
            workOf front given ++ [⟨h.name, values⟩] :=
          List.zipWith_append hlength.symm
        rw [hrun, runHandlers_immediate_cons, hreply, hwork]
        simp only [List.append_assoc, List.singleton_append]

theorem ComesTo.mem (hcomes : c.ComesTo message (h :: rest) values) : h ∈ c.handlers := by
  obtain ⟨front, _, hhandlers, _, _⟩ := hcomes.run_eq
  rw [hhandlers]
  exact List.mem_append_right front List.mem_cons_self

/-- Whoever comes to a handler was given segments. -/
theorem ComesTo.exists_items (hcomes : c.ComesTo message rest values) :
    ∃ items, message.items? = some items := by
  induction hcomes with
  | first hresult =>
      obtain ⟨_, items, _, _, _, hitems, _⟩ := matchMessage_cases hresult
      exact ⟨items, hitems⟩
  | next _ _ ih => exact ih

/-- The first work that handlers do is on the values that the first of them is given. -/
theorem arguments_of_head?_calls {mode : ChainMode} {call : ChainCall}
    (hcall : (c.runHandlers mode message handlers values).calls.head? = some call) :
    call.arguments = values := by
  cases handlers with
  | nil => cases hcall
  | cons h rest =>
      cases mode with
      | awaiting =>
          rw [runHandlers_awaiting_cons] at hcall
          cases hwork : h.call values <;> rw [hwork] at hcall <;> cases hcall <;> rfl
      | immediate =>
          rw [runHandlers_immediate_cons] at hcall
          cases hreply : h.reply values with
          | promise =>
              rw [hreply] at hcall
              by_cases heager : h.form = .eager
              · rw [if_pos heager] at hcall
                cases hcall
                rfl
              · rw [if_neg heager] at hcall
                cases hcall
          | fault fault =>
              rw [hreply] at hcall
              cases hcall
              rfl
          | value v =>
              rw [hreply] at hcall
              cases hcall
              rfl

/-- A run of a chain that awaits is the run of the plain handlers behind its promises: they do the
same work on the same values, in turn, and the answer is the same. A run that does not await is
the same as one that does if no handler it calls answers with a promise. Otherwise it ends at the
first handler that does, with a fault that carries the pattern and the segments; no later
handler is called. The first handler is given the parameters and what was left over if the
message matches, and nothing if it does not. -/
theorem run_awaiting_and_immediate (c : Chain) (message : Value) :
    (∀ inner, List.Forall₂ Handler.DoesWorkOf c.handlers inner →
      ∃ given answer, given.length ≤ c.handlers.length ∧
        c.run .awaiting message = ⟨workOf c.handlers given, answer⟩ ∧
        { c with handlers := inner }.run .immediate message = ⟨workOf inner given, answer⟩) ∧
    ((∀ h rest values, c.ComesTo message (h :: rest) values → h.reply values ≠ .promise) →
      c.run .immediate message = c.run .awaiting message) ∧
    (∀ h rest values, c.ComesTo message (h :: rest) values → h.reply values = .promise →
      ∃ front given items, c.handlers = front ++ h :: rest ∧ given.length = front.length ∧
        message.items? = some items ∧
        c.run .immediate message =
          ⟨workOf front given ++ (if h.form = .eager then [⟨h.name, values⟩] else []),
            .error (.promise h.name c.pattern items)⟩) ∧
    (∀ mode call, (c.run mode message).calls.head? = some call →
      (∀ r, c.result message = .ok (some r) →
        call.arguments = .dict r.params :: r.remaining.map Segment.toValue) ∧
      (c.result message = .ok none → call.arguments = [])) ∧
    ∀ h rest answer, c.handlers = h :: rest → c.result message = .ok answer →
      ∃ call, (c.run .awaiting message).calls.head? = some call ∧ call.handler = h.name := by
  refine ⟨?_, ?_, ?_, ?_, ?_⟩
  · intro inner hwork
    cases hresult : c.result message with
    | error refusal =>
        have hinner : { c with handlers := inner }.result message = .error refusal := hresult
        refine ⟨[], .error (.matching refusal), Nat.zero_le _, ?_, ?_⟩
        · simp only [run, hresult, workOf, List.zipWith_nil_right]
        · simp only [run, hinner, workOf, List.zipWith_nil_right]
    | ok answer =>
        have hinner : { c with handlers := inner }.result message = .ok answer := hresult
        rw [run_of_result hresult, run_of_result hinner]
        exact runHandlers_of_doesWorkOf hwork (firstArguments answer)
  · intro hnone
    cases hresult : c.result message with
    | error refusal => simp only [run, hresult]
    | ok answer =>
        rw [run_of_result hresult, run_of_result hresult]
        exact (ComesTo.first hresult).runHandlers_eq hnone
  · intro h rest values hcomes hreply
    obtain ⟨front, given, hhandlers, hlength, hrun⟩ := hcomes.run_eq
    obtain ⟨items, hitems⟩ := hcomes.exists_items
    refine ⟨front, given, items, hhandlers, hlength, hitems, ?_⟩
    rw [hrun, runHandlers_immediate_cons, hreply]
    simp only [promised, hitems, Option.getD_some]
  · intro mode call hcall
    constructor
    · intro r hresult
      rw [run_of_result hresult] at hcall
      exact arguments_of_head?_calls hcall
    · intro hresult
      rw [run_of_result hresult] at hcall
      exact arguments_of_head?_calls hcall
  · intro h rest answer hhandlers hresult
    rw [run_of_result hresult, hhandlers, runHandlers_awaiting_cons]
    cases h.call (firstArguments answer) with
    | error fault => exact ⟨_, rfl, rfl⟩
    | ok v => exact ⟨_, rfl, rfl⟩

/-- A chain for messages that begin with an integer. -/
def onInteger (handlers : List Handler) : Chain :=
  ⟨"<n:integer>", [.parameter "n" "integer" false none], none, .builtin, handlers⟩

/-- The integer is read, and one is added to it behind a promise. A run that does not await ends
there and does not come to the third handler; without the promises it makes no difference. -/
theorem run_awaiting_and_immediate_add :
    (∃ given answer, given.length ≤ 3 ∧
      (onInteger [.get "n", .eager (.add 1), .deferred .count]).run .awaiting
          (.list [.segment "text" [("text", .text "4")], .segment "face" []]) =
        ⟨workOf [.get "n", .eager (.add 1), .deferred .count] given, answer⟩ ∧
      (onInteger [.get "n", .add 1, .count]).run .immediate
          (.list [.segment "text" [("text", .text "4")], .segment "face" []]) =
        ⟨workOf [.get "n", .add 1, .count] given, answer⟩) ∧
    (onInteger [.get "n", .add 1]).run .immediate
        (.list [.segment "text" [("text", .text "4")], .segment "face" []]) =
      (onInteger [.get "n", .add 1]).run .awaiting
        (.list [.segment "text" [("text", .text "4")], .segment "face" []]) ∧
    ((onInteger [.get "n", .eager (.add 1), .deferred .count]).run .immediate
        (.list [.segment "text" [("text", .text "4")], .segment "face" []])).answer =
      .error (.promise "h_future" "<n:integer>"
        [.segment "text" [("text", .text "4")], .segment "face" []]) ∧
    ∃ call, ((onInteger [.get "n", .eager (.add 1), .deferred .count]).run .awaiting
        (.list [.segment "text" [("text", .text "4")], .segment "face" []])).calls.head? =
          some call ∧ call.handler = "h_get" ∧
        call.arguments = [.dict [("n", .int 4)], .segment "face" []] := by
  obtain ⟨hsame, _, hstops, harguments, hfirst⟩ := run_awaiting_and_immediate
    (onInteger [.get "n", .eager (.add 1), .deferred .count])
    (.list [.segment "text" [("text", .text "4")], .segment "face" []])
  have hmatch : (onInteger [.get "n", .eager (.add 1), .deferred .count]).result
      (.list [.segment "text" [("text", .text "4")], .segment "face" []]) =
        .ok (some
          { matched := [.ofText "4"], params := [("n", .int 4)], remaining := [⟨"face", []⟩] }) :=
    rfl
  refine ⟨?_, ?_, ?_, ?_⟩
  · exact hsame _ (.cons (Handler.doesWorkOf_self rfl) (.cons (Handler.doesWorkOf_eager rfl)
      (.cons (Handler.doesWorkOf_deferred rfl) .nil)))
  · have hplain : ∀ h ∈ [Handler.get "n", .add 1], h.form = .plain := by
      simp [Handler.get, Handler.add, Handler.pure]
    exact (run_awaiting_and_immediate _ _).2.1 fun h _ values hcomes =>
      Handler.reply_ne_promise (hplain h hcomes.mem) values
  · have hcomes := (ComesTo.first hmatch).next (v := .int 4) rfl
    obtain ⟨_, _, items, _, _, hitems, hrun⟩ := hstops _ _ _ hcomes rfl
    cases hitems
    rw [hrun]
    rfl
  · obtain ⟨call, hcall, hname⟩ := hfirst _ _ _ rfl hmatch
    exact ⟨call, hcall, hname, (harguments _ _ hcall).1 _ hmatch⟩

end Chain

end MessagePattern
