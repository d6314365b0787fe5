import MessagePattern.Match.Asking
import MessagePattern.Proofs.Answer
import MessagePattern.Proofs.Segment.History

/-!
# What a match asks

All that a match does to objects is to make its own and to ask about them (`Works`). As nobody
else knows them yet, what it is answered is true (`Serves`), and so the run with its questions
comes to what the run without them comes to (`gives_steps`), whatever else is remembered.
-/

namespace MessagePattern

/-! ## The work of a match -/

/-- What a match may do to a pool: it makes working copies under names that are not taken, and asks
about them. -/
inductive Works (run : Nat) (p : SegmentPool) : SegmentPool → Prop
  | idle : Works run p p
  | made {q : SegmentPool} (h : Works run p q) (label : Label) (s : Segment)
      (hnew : q.objects.get? (.working run label) = none) :
      Works run p (q.make (.working run label) s)
  | asked {q : SegmentPool} (h : Works run p q) (label : Label) (kind : String) :
      Works run p (q.isKind (.working run label) (some kind)).2

namespace Works

variable {run : Nat} {p q r : SegmentPool}

theorem trans (h : Works run p q) (h' : Works run q r) : Works run p r := by
  induction h' with
  | idle => exact h
  | made _ label s hnew ih => exact ih.made label s hnew
  | asked _ label kind ih => exact ih.asked label kind

theorem recalls (h : Works run p q) (hp : p.Recalls) : q.Recalls := by
  induction h with
  | idle => exact hp
  | made _ label s hnew ih => exact ih.make hnew s
  | asked _ label kind ih => exact ih.isKind _ _

/-- Other objects are left alone. -/
theorem get?_eq (h : Works run p q) {name : SegmentName}
    (hname : ∀ label, name ≠ .working run label) :
    q.objects.get? name = p.objects.get? name := by
  induction h with
  | idle => rfl
  | made _ label s _ ih => rw [SegmentPool.get?_make, if_neg (hname label).symm, ih]
  | asked _ label kind ih =>
      exact (SegmentPool.get?_perform _ _ _ _).trans ((if_neg (hname label).symm).trans ih)

theorem counts_eq (h : Works run p q) : q.hosts = p.hosts ∧ q.runs = p.runs := by
  induction h with
  | idle => exact ⟨rfl, rfl⟩
  | made _ label s _ ih => exact ih
  | @asked q _ label kind ih =>
      obtain ⟨hhosts, hruns, _⟩ := q.perform_cases (.asked (.working run label) (some kind)) _
      exact ⟨hhosts.trans ih.1, hruns.trans ih.2⟩

/-- What is done is done to working copies, and their kinds are never assigned. -/
theorem exists_done (h : Works run p q) : ∃ acts, q.done = p.done ++ acts ∧
    ∀ act ∈ acts, (∃ label, act.name = .working run label) ∧
      ∀ name kind, act ≠ .assigned name kind := by
  induction h with
  | idle => exact ⟨[], (List.append_nil _).symm, List.forall_mem_nil _⟩
  | made _ label s _ ih =>
      obtain ⟨acts, hdone, hacts⟩ := ih
      refine ⟨acts ++ [.made (.working run label) s.kind], ?_,
        List.forall_mem_append.mpr ⟨hacts, List.forall_mem_singleton.mpr ⟨⟨label, rfl⟩, ?_⟩⟩⟩
      · rw [← List.append_assoc, ← hdone]
        rfl
      · intro name kind heq
        cases heq
  | @asked q _ label kind ih =>
      obtain ⟨acts, hdone, hacts⟩ := ih
      obtain ⟨_, _, hasked⟩ := q.perform_cases (.asked (.working run label) (some kind))
        fun k => (k.isKind (some kind)).2
      rw [hdone, List.append_assoc] at hasked
      refine ⟨_, hasked, List.forall_mem_append.mpr ⟨hacts, fun act hact => ?_⟩⟩
      obtain ⟨_, _, rfl⟩ := List.mem_map.mp hact
      exact ⟨⟨label, rfl⟩, by simp⟩

end Works

/-! ## Working copies -/

/-- A pool holds the working copies of the segments that lie ahead, and has answered nothing else
about them than what is true. The next text that is pushed back will be a new object. -/
structure Serves (run : Nat) (c : Cursor) (p : SegmentPool) : Prop where
  ahead : ∀ l ∈ c.upcoming, ∃ k, p.objects.get? (.working run l.label) = some k ∧
    k.segment = l.segment ∧ k.IsExact
  behind : ∀ n, c.pushes ≤ n → p.objects.get? (.working run (.pushed n)) = none

namespace Serves

variable {run : Nat} {c : Cursor} {p : SegmentPool}

theorem advance (h : Serves run c p) (count : Int) : Serves run (c.advance count) p where
  ahead l hl := by
    rw [Cursor.upcoming_advance] at hl
    exact h.ahead l (List.mem_of_mem_drop hl)
  behind := h.behind

theorem isKind (h : Serves run c p) (label : Label) (kind : Option String) :
    Serves run c (p.isKind (.working run label) kind).2 where
  ahead l hl := by
    obtain ⟨k, hget, hsegment, hexact⟩ := h.ahead l hl
    rw [SegmentPool.isKind, SegmentPool.get?_perform, hget]
    split
    · exact ⟨_, rfl, by rw [KeptSegment.segment_isKind, hsegment], hexact.isKind kind⟩
    · exact ⟨k, rfl, hsegment, hexact⟩
  behind n hn := by
    rw [SegmentPool.isKind, SegmentPool.get?_perform, h.behind n hn]
    exact ite_self none

theorem push (h : Serves run c p) (s : Segment) (blob : Bool) :
    Serves run (c.push s blob) (p.make (.working run (.pushed c.pushes)) s) where
  ahead l hl := by
    rw [Cursor.upcoming_push] at hl
    rw [SegmentPool.get?_make]
    rcases List.mem_cons.mp hl with rfl | hl
    · exact ⟨_, if_pos rfl, rfl, KeptSegment.isExact_of_new s⟩
    · obtain ⟨k, hget, hk⟩ := h.ahead l hl
      have hne : SegmentName.working run (.pushed c.pushes) ≠ .working run l.label := by
        intro heq
        rw [← heq, h.behind _ (Nat.le_refl _)] at hget
        cases hget
      rw [if_neg hne]
      exact ⟨k, hget, hk⟩
  behind n hn := by
    have hlt : c.pushes < n := hn
    have hne : SegmentName.working run (.pushed c.pushes) ≠ .working run (.pushed n) := by
      intro heq
      cases heq
      omega
    rw [SegmentPool.get?_make, if_neg hne]
    exact h.behind n (Nat.le_of_lt hlt)

end Serves

/-! ## What is answered -/

/-- Asked of a pool, this is the answer; all that was done to objects is the work of a match, and
the pool is as wanted afterwards. -/
def Gives {α : Type} (run : Nat) (asking : Asking α) (p : SegmentPool)
    (answer : Except MatchFault α) (wanted : SegmentPool → Prop) : Prop :=
  ∃ q, asking.run p = (answer, q) ∧ Works run p q ∧ wanted q

section

variable {α β : Type} {run : Nat} {p : SegmentPool} {asking : Asking α} {f : α → Asking β}
  {a : α} {e : MatchFault} {wanted wanted' : SegmentPool → Prop}
  {answer : Except MatchFault β}

theorem gives_settled (answer : Except MatchFault α) (h : wanted p) :
    Gives run (Asking.settled answer) p answer wanted :=
  ⟨p, rfl, .idle, h⟩

theorem gives_pure (a : α) (h : wanted p) : Gives run (pure a) p (.ok a) wanted :=
  ⟨p, rfl, .idle, h⟩

theorem gives_make {label : Label} {s : Segment}
    (hnew : p.objects.get? (.working run label) = none)
    (h : wanted (p.make (.working run label) s)) :
    Gives run (Asking.make (.working run label) s) p (.ok ()) wanted :=
  ⟨_, rfl, Works.idle.made label s hnew, h⟩

theorem Gives.bind (h : Gives run asking p (.ok a) wanted)
    (hf : ∀ q, wanted q → Gives run (f a) q answer wanted') :
    Gives run (asking >>= f) p answer wanted' := by
  obtain ⟨q, hrun, hworks, hq⟩ := h
  obtain ⟨r, hrun', hworks', hr⟩ := hf q hq
  refine ⟨r, ?_, hworks.trans hworks', hr⟩
  rw [run_bind, hrun]
  exact hrun'

theorem Gives.bind_error (h : Gives run asking p (.error e) wanted)
    (hwanted : ∀ q, wanted q → wanted' q) :
    Gives run (asking >>= f) p (.error e) wanted' := by
  obtain ⟨q, hrun, hworks, hq⟩ := h
  refine ⟨q, ?_, hworks, hwanted q hq⟩
  rw [run_bind, hrun]

/-- What goes on from an answer, whichever it was. -/
theorem Gives.answer_bind {outcome : Except MatchFault α}
    {g : α → Except MatchFault β} (h : Gives run asking p outcome wanted)
    (hok : ∀ a, outcome = .ok a → ∀ q, wanted q → Gives run (f a) q (g a) wanted')
    (herror : ∀ e, outcome = .error e → ∀ q, wanted q → wanted' q) :
    Gives run (asking >>= f) p (outcome >>= g) wanted' := by
  cases outcome with
  | error e => exact h.bind_error (herror e rfl)
  | ok a => exact h.bind (hok a rfl)

end

/-! ## Single segments -/

section

variable {run : Nat} {c : Cursor} {p : SegmentPool} {l : Labelled} {setting : Setting}

/-- Of a segment that lies ahead a match is told the truth. -/
theorem gives_isKind (h : Serves run c p) (hl : l ∈ c.upcoming) (kind : String) :
    Gives run (Asking.isKind (.working run l.label) kind) p (.ok (decide (l.segment.kind = kind)))
      (Serves run c) := by
  obtain ⟨k, hget, hsegment, hexact⟩ := h.ahead l hl
  have hanswer : (p.isKind (.working run l.label) (some kind)).1 =
      decide (l.segment.kind = kind) := by
    rw [SegmentPool.isKind_fst hget, hexact, hsegment]
    simp only [Option.some.injEq]
  refine ⟨(p.isKind (.working run l.label) (some kind)).2, ?_, .asked .idle _ _, h.isKind _ _⟩
  rw [← hanswer]
  rfl

/-- What hangs on the kind of a segment that lies ahead goes as it should. -/
theorem gives_ofKind {α : Type} {asking asking' : Asking α} {answer : Except MatchFault α}
    (h : Serves run c p) (hl : l ∈ c.upcoming) (kind : String)
    (hkind : l.segment.kind = kind → ∀ q, Serves run c q →
      Gives run asking q answer (Serves run c))
    (hother : l.segment.kind ≠ kind → ∀ q, Serves run c q →
      Gives run asking' q answer (Serves run c)) :
    Gives run (do if ← Asking.isKind (.working run l.label) kind then asking else asking') p answer
      (Serves run c) := by
  refine (gives_isKind h hl kind).bind fun q hq => ?_
  by_cases heq : l.segment.kind = kind
  · rw [if_pos (decide_eq_true heq)]
    exact hkind heq q hq
  · rw [if_neg (by simpa using heq)]
    exact hother heq q hq

theorem gives_tryTypedLiteral (h : Serves run c p) (hl : l ∈ c.upcoming) (kind value : String)
    (blob : Bool) : Gives run (Asking.tryTypedLiteral setting kind value run l blob) p
      (tryTypedLiteral setting kind value l.segment blob) (Serves run c) := by
  refine gives_ofKind h hl kind (fun heq q hq => ?_) fun hne q hq => ?_
  · rw [heq]
    exact gives_settled _ hq
  · rw [tryTypedLiteral, if_pos hne]
    exact gives_pure none hq

theorem gives_tryParameter (h : Serves run c p) (hl : l ∈ c.upcoming) (name dataType : String)
    (shared blob : Bool) :
    Gives run (Asking.tryParameter setting name dataType shared run l blob) p
      (tryParameter setting name dataType shared l.segment blob) (Serves run c) := by
  unfold Asking.tryParameter tryParameter
  by_cases htext :
      (decide (dataType = textKind) || (l.segment.isText && setting.registry.isSpecial dataType)) =
        true
  · simp only [htext, if_true]
    exact gives_settled _ h
  · simp only [htext]
    refine gives_ofKind h hl dataType (fun heq q hq => ?_) fun hne q hq => ?_
    · rw [tryKindParameter, if_neg (not_not.mpr heq)]
      exact gives_pure _ hq
    · rw [tryKindParameter, if_pos hne]
      exact gives_pure none hq

theorem gives_intake (setting : Setting) (h : Serves run c p) (hl : l ∈ c.upcoming)
    (token : Token) (rest : List Token) (blob : Bool) :
    Gives run (Asking.intake? setting token rest run l blob) p
      (intake? setting token rest l.segment blob) (Serves run c) := by
  cases token with
  | literal text optional => exact gives_settled _ h
  | typedLiteral kind value => exact gives_tryTypedLiteral h hl kind value blob
  | parameter name dataType optional default =>
      exact gives_tryParameter h hl name dataType _ blob
  | rest name dataType => exact gives_pure none h

theorem gives_absorb {st : MatchState} (h : Serves run st.cursor p) (i : Intake) :
    Gives run (Asking.absorb run st i) p (.ok (st.absorb i))
      (Serves run (st.absorb i).cursor) := by
  have hpassed := h.advance 1
  unfold Asking.absorb
  cases hempty : i.left.isEmpty with
  | true =>
      have hcursor : (st.absorb i).cursor = st.cursor.advance 1 := by
        simp [MatchState.absorb, hempty]
      rw [hcursor]
      exact gives_pure _ hpassed
  | false =>
      have hcursor : (st.absorb i).cursor =
          (st.cursor.advance 1).push (.ofText (String.ofList i.left)) i.blob := by
        simp [MatchState.absorb, hempty]
      have hmake := gives_make (h.behind _ (Nat.le_refl _))
        (hpassed.push (.ofText (String.ofList i.left)) i.blob)
      rw [hcursor]
      exact hmake.bind fun q hq => gives_pure _ hq

/-! ## Rest parameters -/

theorem gives_restPart (h : Serves run c p) (hl : l ∈ c.upcoming) (dataType : Option String) :
    Gives run (Asking.restPart setting dataType run l) p
      (.ok (restPart setting dataType l.segment)) (Serves run c) := by
  cases dataType with
  | none => exact gives_pure _ h
  | some kind =>
      refine gives_ofKind h hl kind (fun heq q hq => ?_) fun hne q hq => ?_
      · rw [restPart, if_pos heq]
        exact gives_pure _ hq
      · rw [restPart, if_neg hne]
        split <;> exact gives_pure _ hq

theorem gives_restRun (h : Serves run c p) {ls : List Labelled} (hls : ∀ l ∈ ls, l ∈ c.upcoming)
    (dataType : Option String) :
    Gives run (Asking.restRun setting dataType run ls) p
      (.ok (restRun setting dataType (ls.map (·.segment)))) (Serves run c) := by
  induction ls generalizing p with
  | nil => exact gives_pure [] h
  | cons l more ih =>
      obtain ⟨hl, hmore⟩ := List.forall_mem_cons.mp hls
      refine (gives_restPart h hl dataType).bind fun q hq => ?_
      rw [List.map_cons, restRun]
      cases restPart setting dataType l.segment with
      | none => exact gives_pure [] hq
      | some added => exact (ih hq hmore).bind fun r hr => gives_pure _ hr

theorem gives_takeRest {st : MatchState} (h : Serves run st.cursor p) (name : String)
    (dataType : Option String) :
    Gives run (Asking.takeRest setting name dataType run st) p
      (.ok (takeRest setting name dataType st))
      (Serves run (takeRest setting name dataType st).cursor) := by
  refine (gives_restRun h (fun l hl => hl) dataType).bind fun q hq => ?_
  exact gives_pure _ (hq.advance _)

end

/-! ## The run -/

section

variable {run : Nat} {p : SegmentPool} {st : MatchState} (setting : Setting) (token : Token)
  (rest : List Token)

/-- A pool serves the state that an attempt has come to, or else that before the attempt. -/
def ServesAfter (run : Nat) (st : MatchState)
    (answer : Except MatchFault (Option MatchState)) (p : SegmentPool) : Prop :=
  match answer with
  | .ok (some st') => Serves run st'.cursor p
  | _ => Serves run st.cursor p

theorem gives_trySegment {current : Labelled} (h : Serves run st.cursor p)
    (hcurrent : current ∈ st.cursor.upcoming) {outcome : Except MatchFault (Option Intake)}
    (houtcome : intake? setting token rest current.segment (st.cursor.isBlob current.label) =
      outcome) :
    Gives run (Asking.trySegment setting token rest run current st) p
      (outcome.map (Option.map st.absorb))
      (ServesAfter run st (outcome.map (Option.map st.absorb))) := by
  have hintake := gives_intake setting h hcurrent token rest (st.cursor.isBlob current.label)
  rw [houtcome] at hintake
  unfold Asking.trySegment
  cases outcome with
  | error e => exact hintake.bind_error fun q hq => hq
  | ok taken =>
      refine hintake.bind fun q hq => ?_
      cases taken with
      | none => exact gives_pure none hq
      | some i => exact (gives_absorb hq i).bind fun r hr => gives_pure _ hr

theorem gives_tryToken {current : Labelled} (h : Serves run st.cursor p)
    (hcurrent : current ∈ st.cursor.upcoming) :
    Gives run (Asking.tryToken setting token rest run current st) p
      (tryToken setting token rest current st)
      (ServesAfter run st (tryToken setting token rest current st)) := by
  cases token with
  | rest name dataType => exact (gives_takeRest h name dataType).bind fun q hq => gives_pure _ hq
  | literal text optional => exact gives_trySegment setting _ rest h hcurrent rfl
  | typedLiteral kind value => exact gives_trySegment setting _ rest h hcurrent rfl
  | parameter name dataType optional default => exact gives_trySegment setting _ rest h hcurrent rfl

theorem gives_tryHere (h : Serves run st.cursor p) :
    Gives run (Asking.tryHere setting token rest run st) p (tryHere setting token rest st)
      (ServesAfter run st (tryHere setting token rest st)) := by
  unfold Asking.tryHere tryHere
  cases hcurrent : st.cursor.current? with
  | none => exact gives_pure none h
  | some current =>
      rw [Cursor.current?_eq_head?] at hcurrent
      exact gives_tryToken setting token rest h (List.mem_of_mem_head? hcurrent)

theorem gives_step (h : Serves run st.cursor p) :
    Gives run (Asking.step setting token rest run st) p (step setting token rest st)
      (ServesAfter run st (step setting token rest st)) := by
  have hhere := gives_tryHere setting token rest h
  unfold Asking.step step
  refine hhere.answer_bind (fun outcome heq q hq => ?_) fun e heq q hq => ?_
  · rw [heq] at hq ⊢
    cases outcome with
    | some st' => exact gives_pure _ hq
    | none =>
        refine gives_pure _ ?_
        show ServesAfter run st (.ok ((st.result.skip token).map _)) q
        cases st.result.skip token <;> exact hq
  · rw [heq] at hq ⊢
    exact hq

theorem gives_steps (tokens : List Token) (h : Serves run st.cursor p) :
    Gives run (Asking.steps setting run tokens st) p (steps setting tokens st) fun _ => True := by
  induction tokens generalizing st p with
  | nil => exact gives_pure _ trivial
  | cons token rest ih =>
      unfold Asking.steps steps
      refine (gives_step setting token rest h).answer_bind (fun outcome heq q hq => ?_)
        fun _ _ _ _ => trivial
      rw [heq] at hq
      cases outcome with
      | some st' => exact ih hq
      | none => exact gives_pure _ trivial

theorem gives_runTokens (tokens : List Token) {message : List Segment}
    (h : Serves run (.start message) p) :
    Gives run (Asking.runTokens setting tokens run message) p (runTokens setting tokens message)
      fun _ => True := by
  have hsteps : Gives run (Asking.steps setting run tokens { cursor := .start message }) p
      (steps setting tokens { cursor := .start message }) fun _ => True :=
    gives_steps setting tokens h
  refine hsteps.answer_bind (fun outcome _ q _ => ?_) fun _ _ _ _ => trivial
  cases outcome <;> exact gives_pure _ trivial

theorem gives_matchTokens (tokens : List Token) {message : List Segment}
    (h : Serves run (.start message) p) :
    Gives run (Asking.matchTokens setting tokens run message) p
      (matchTokens setting tokens message) fun _ => True := by
  unfold Asking.matchTokens
  split
  · exact gives_settled _ trivial
  · rename_i hne
    have hrun : matchTokens setting tokens message = runTokens setting tokens message := by
      cases tokens with
      | nil => simp at hne
      | cons token rest =>
          cases message with
          | nil => simp at hne
          | cons s more => rfl
    rw [hrun]
    exact gives_runTokens setting tokens h

end

/-! ## Whole matches -/

section

variable {run : Nat} {p : SegmentPool}

theorem works_makeWorking (place : Nat) (segments : List Segment)
    (hnew : ∀ i, place ≤ i → p.objects.get? (.working run (.given i)) = none) :
    Works run p (p.makeWorking run (Cursor.labelFrom place segments)) ∧
      (∀ l ∈ Cursor.labelFrom place segments,
        (p.makeWorking run (Cursor.labelFrom place segments)).objects.get? (.working run l.label) =
          some { segment := l.segment }) ∧
      ∀ name, (∀ i, place ≤ i → name ≠ .working run (.given i)) →
        (p.makeWorking run (Cursor.labelFrom place segments)).objects.get? name =
          p.objects.get? name := by
  induction segments generalizing place p with
  | nil => exact ⟨.idle, List.forall_mem_nil _, fun _ _ => rfl⟩
  | cons s more ih =>
      have hnew' : ∀ i, place + 1 ≤ i →
          (p.make (.working run (.given place)) s).objects.get? (.working run (.given i)) =
            none := by
        intro i hi
        have hne : SegmentName.working run (.given place) ≠ .working run (.given i) := by
          intro heq
          cases heq
          omega
        rw [SegmentPool.get?_make, if_neg hne]
        exact hnew i (by omega)
      obtain ⟨hworks, hheld, hothers⟩ := ih (place + 1) hnew'
      refine ⟨(Works.idle.made _ s (hnew place (Nat.le_refl _))).trans hworks,
        List.forall_mem_cons.mpr ⟨?_, hheld⟩, fun name hname => ?_⟩
      · have hfirst := hothers (.working run (.given place)) (by
          intro i hi heq
          cases heq
          omega)
        exact hfirst.trans ((SegmentPool.get?_make _ _ _ _).trans (if_pos rfl))
      · refine (hothers name fun i hi => hname i (by omega)).trans ?_
        rw [SegmentPool.get?_make, if_neg (hname place (Nat.le_refl _)).symm]

theorem serves_makeWorking (hnew : ∀ label, p.objects.get? (.working run label) = none)
    (segments : List Segment) :
    Serves run (.start segments) (p.makeWorking run (Cursor.labelFrom 0 segments)) := by
  obtain ⟨_, hheld, hothers⟩ := works_makeWorking 0 segments
    fun i _ => hnew (.given i)
  refine ⟨fun l hl => ⟨_, hheld l hl, rfl, KeptSegment.isExact_of_new _⟩, fun n _ => ?_⟩
  rw [hothers _ (by simp)]
  exact hnew (.pushed n)

end

theorem matchMessage_eq_readRequest (source : PatternSource) (message : Value)
    (rules : Option RawRules) (registry : Registry) :
    matchMessage source message rules registry =
      readRequest source message rules >>= fun (tokens, rules, segments) =>
        (matchTokens ⟨rules, registry⟩ tokens segments).mapError .broken := by
  unfold matchMessage readRequest
  cases source.resolve with
  | error refusal => rfl
  | ok tokens =>
      cases message.items? with
      | none => rfl
      | some items =>
          simp only [bind, Except.bind]
          cases (Rules.resolve rules).mapError Refusal.invalid with
          | error refusal => rfl
          | ok rules => cases (readMessage items).mapError Refusal.invalid <;> rfl

/-- A match comes to what it comes to without any objects; and if it gets to its work at all,
its work is all that it does to them. -/
theorem SegmentPool.matchMessage_works {p : SegmentPool} (hp : p.Fresh) (source : PatternSource)
    (message : Value) (rules : Option RawRules) (registry : Registry) :
    (p.matchMessage source message rules registry).1 =
        MessagePattern.matchMessage source message rules registry ∧
      ((p.matchMessage source message rules registry).2 = p ∨
        Works p.runs { p with runs := p.runs + 1 }
          (p.matchMessage source message rules registry).2) := by
  rw [matchMessage_eq_readRequest]
  unfold SegmentPool.matchMessage
  cases readRequest source message rules with
  | error refusal => exact ⟨rfl, Or.inl rfl⟩
  | ok request =>
      obtain ⟨tokens, rules, segments⟩ := request
      have hnew : ∀ label, { p with runs := p.runs + 1 }.objects.get? (.working p.runs label) =
          none := fun label => hp.working p.runs label (Nat.le_refl _)
      have hmade := (works_makeWorking 0 segments
        fun i _ => hnew (.given i)).1
      obtain ⟨q, hrun, hworks, _⟩ := gives_matchTokens ⟨rules, registry⟩ tokens
        (serves_makeWorking hnew segments)
      simp only [hrun]
      exact ⟨rfl, Or.inr (hmade.trans hworks)⟩

end MessagePattern
