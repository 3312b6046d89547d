import TreeLang.Evaluator

/-!
# Active calls

The counter of a state is the number of calls that are active: those that were entered and not left
yet. The events of a log tell this number independently, since the start and the end of each call
are events. So it is said here of the events that are added to a log: each one that carries a depth
carries the number of calls that are active by then. A call is left whether its body succeeds or
not, hence the counter is what it was when an evaluation ends.
-/

namespace TreeLang

open Eval (bind_eq_some)

/-! ## Counting calls in a log -/

namespace Event

/-- The depth that an event carries. -/
def depth? : Event → Option Nat
  | eval _ depth => some depth
  | call _ depth _ => some depth
  | _ => none

/-- Whether a call is entered. -/
def isCall : Event → Bool
  | call _ _ _ => true
  | _ => false

/-- The number of calls that are entered. -/
def entered (events : List Event) : Nat := events.countP isCall

/-- The number of calls that are left. -/
def left (events : List Event) : Nat := events.count leave

/-- The number of calls that are entered and not left again. -/
def active (events : List Event) : Nat := entered events - left events

/-- Events have one of the two most detailed levels. -/
theorem debug_le_level (event : Event) : Level.debug.detail ≤ event.level.detail := by
  cases event <;> simp [Event.level, Level.detail]

theorem entered_append (before after : List Event) :
    entered (before ++ after) = entered before + entered after :=
  List.countP_append

theorem left_append (before after : List Event) :
    left (before ++ after) = left before + left after :=
  List.count_append

/-- The events are those of an evaluation that starts inside `depth` calls. -/
structure Numbered (limit : Option Nat) (depth : Nat) (events : List Event) : Prop where
  /-- At no moment more calls have been left than entered. -/
  nested : ∀ before after, events = before ++ after → left before ≤ entered before
  /-- An event carries the number of calls that are active by then. A call that is entered counts
  itself. -/
  carried : ∀ before event after n, events = before ++ event :: after → event.depth? = some n →
    n = depth + active (before ++ [event])
  /-- A limit that is kept at the start is kept. -/
  admitted : ∀ l, limit = some l → depth ≤ l → ∀ event ∈ events, ∀ n, event.depth? = some n → n ≤ l

theorem Numbered.nil (limit : Option Nat) (depth : Nat) : Numbered limit depth [] where
  nested := by
    intro before after h
    obtain ⟨rfl, -⟩ := List.nil_eq_append_iff.mp h
    exact Nat.le_refl _
  carried := by
    intro before event after n h
    cases (List.nil_eq_append_iff.mp h).2
  admitted := by
    intro l _ _ event hevent
    cases hevent

theorem Numbered.snoc {limit : Option Nat} {depth : Nat} {events : List Event} {event : Event}
    (h : Numbered limit depth events)
    (hnested : left (events ++ [event]) ≤ entered (events ++ [event]))
    (hcarried : ∀ n, event.depth? = some n → n = depth + active (events ++ [event]))
    (hadmitted : ∀ l, limit = some l → depth ≤ l → ∀ n, event.depth? = some n → n ≤ l) :
    Numbered limit depth (events ++ [event]) where
  nested := by
    intro before after heq
    rcases List.eq_nil_or_concat after with rfl | ⟨after, last, rfl⟩
    · rw [List.append_nil] at heq
      rw [← heq]
      exact hnested
    · rw [List.concat_eq_append, ← List.append_assoc] at heq
      exact h.nested before after (List.append_inj_left' heq rfl)
  carried := by
    intro before other after n heq hn
    rcases List.eq_nil_or_concat after with rfl | ⟨after, last, rfl⟩
    · obtain ⟨rfl, hlast⟩ := List.append_inj' heq rfl
      cases hlast
      exact hcarried n hn
    · rw [List.concat_eq_append, ← List.cons_append, ← List.append_assoc] at heq
      exact h.carried before other after n (List.append_inj_left' heq rfl) hn
  admitted := by
    intro l hl hdepth other hother n hn
    rcases List.mem_append.mp hother with hother | hother
    · exact h.admitted l hl hdepth other hother n hn
    · obtain rfl := List.mem_singleton.mp hother
      exact hadmitted l hl hdepth n hn

end Event

/-! ## States -/

/-- An evaluation that started in the state `start` is in this state, and has counted calls. -/
structure State.Counted (limit : Option Nat) (start s : State) : Prop where
  /-- No calls are left that were active at the start. -/
  deeper : start.depth ≤ s.depth
  /-- A limit that is kept at the start is kept. -/
  admitted : ∀ l, limit = some l → start.depth ≤ l → s.depth ≤ l
  /-- The same events are kept as at the start. -/
  detail : s.log.detail = start.log.detail
  /-- The events since the start. If calls are among them, they tell how many are active. -/
  events : ∃ added, s.log.events.toList = start.log.events.toList ++ added ∧
    Event.Numbered limit start.depth added ∧
    (Level.debug.detail ≤ start.log.detail →
      start.depth + Event.entered added = s.depth + Event.left added)

namespace State.Counted

variable {limit : Option Nat} {start s t : State}

theorem refl (limit : Option Nat) (s : State) : s.Counted limit s where
  deeper := Nat.le_refl _
  admitted := fun _ _ h => h
  detail := rfl
  events := ⟨[], (List.append_nil _).symm, .nil limit s.depth, fun _ => rfl⟩

/-- Frames and sinks do not matter. -/
theorem congr (h : start.Counted limit s) (hdepth : t.depth = s.depth) (hlog : t.log = s.log) :
    start.Counted limit t := by
  refine ⟨?_, ?_, ?_, ?_⟩
  · rw [hdepth]
    exact h.deeper
  · rw [hdepth]
    exact h.admitted
  · rw [hlog]
    exact h.detail
  · rw [hdepth, hlog]
    exact h.events

/-- An event is added, and the counter changes if this is the start or the end of a call. -/
theorem add {event : Event} (h : start.Counted limit s) (hlog : t.log = s.log.add event)
    (hdepth : t.depth + Event.left [event] = s.depth + Event.entered [event])
    (hdeeper : start.depth ≤ t.depth)
    (hadmitted : ∀ l, limit = some l → start.depth ≤ l → t.depth ≤ l)
    (hcarried : ∀ n, event.depth? = some n → n = t.depth)
    (hcalls : t.depth ≠ s.depth → event.level = .debug) : start.Counted limit t := by
  obtain ⟨added, hevents, hnumbered, hbalance⟩ := h.events
  have hdetail : s.log.detail = start.log.detail := h.detail
  by_cases hkept : event.level.detail ≤ s.log.detail
  · have hadd : t.log = { s.log with events := s.log.events.push event } :=
      hlog.trans (if_pos hkept)
    have hdebug := event.debug_le_level
    have hbalance := hbalance (by omega)
    have hentered := Event.entered_append added [event]
    have hleft := Event.left_append added [event]
    refine ⟨hdeeper, hadmitted, ?_, added ++ [event], ?_, ?_, fun _ => by omega⟩
    · rw [hadd]
      exact hdetail
    · rw [hadd, Array.toList_push, hevents, List.append_assoc]
    · refine hnumbered.snoc (by omega) (fun n hn => ?_) fun l hl hle n hn => ?_
      · rw [hcarried n hn, Event.active]
        omega
      · rw [hcarried n hn]
        exact hadmitted l hl hle
  · have hsame : t.log = s.log := hlog.trans (if_neg hkept)
    refine ⟨hdeeper, hadmitted, hsame ▸ hdetail, added, hsame ▸ hevents, hnumbered, ?_⟩
    intro hlevel
    -- The start or the end of a call would have been kept.
    have hunchanged : t.depth = s.depth := Decidable.byContradiction fun hne => hkept <| by
      rw [hcalls hne]
      omega
    rw [hunchanged]
    exact hbalance hlevel

/-- The evaluation of an expression starts. -/
theorem started (h : start.Counted limit s) (e : Expr) : start.Counted limit (s.started e) :=
  h.add rfl rfl h.deeper h.admitted (fun _ hn => (Option.some.inj hn).symm)
    fun hne => absurd rfl hne

theorem assigned (h : start.Counted limit s) (name : String) (value : Value) :
    start.Counted limit (s.assigned name value) :=
  h.add rfl rfl h.deeper h.admitted nofun fun hne => absurd rfl hne

/-- A call is entered that the limit admits. -/
theorem entered (h : start.Counted limit s) (hadmits : ∀ l, limit = some l → s.depth < l)
    (params : List String) (arguments : Env) :
    start.Counted limit (s.entered params arguments) :=
  h.add rfl rfl (Nat.le_succ_of_le h.deeper) (fun l hl _ => hadmits l hl)
    (fun _ hn => (Option.some.inj hn).symm) fun _ => rfl

/-- A call is left that was entered since the start. -/
theorem left (h : start.Counted limit s) (hdepth : start.depth < s.depth) (caller : Env) :
    start.Counted limit (s.left caller) := by
  have hback : (s.left caller).depth = s.depth - 1 := rfl
  refine h.add rfl ?_ ?_ (fun l hl hle => ?_) nofun fun _ => rfl
  · show s.depth - 1 + 1 = s.depth
    omega
  · omega
  · have hle := h.admitted l hl hle
    omega

end State.Counted

/-! ## Steps -/

/-- A step that starts inside `depth` calls counts calls, and is back inside as many at its end,
whether it succeeds or not. -/
def Eval.Counts {α : Type} (limit : Option Nat) (start : State) (depth : Nat) (step : Eval α) :
    Prop :=
  ∀ s x, s.depth = depth → start.Counted limit s → step s = some x →
    x.2.depth = depth ∧ start.Counted limit x.2

namespace Eval.Counts

variable {α β : Type} {limit : Option Nat} {start : State} {depth : Nat}

theorem bind {first : Eval α} {next : α → Eval β} (hfirst : Counts limit start depth first)
    (hnext : ∀ a, Counts limit start depth (next a)) :
    Counts limit start depth (first >>= next) := by
  intro s x hdepth hs hx
  rcases bind_eq_some hx with ⟨a, t, h₁, h₂⟩ | ⟨cause, t, h₁, rfl⟩
  · obtain ⟨ht, hcounted⟩ := hfirst s _ hdepth hs h₁
    exact hnext a t x ht hcounted h₂
  · exact hfirst s _ hdepth hs h₁

/-- Steps that neither add events nor count. -/
theorem silent {step : Eval α}
    (h : ∀ s x, step s = some x → x.2.depth = s.depth ∧ x.2.log = s.log) :
    Counts limit start depth step := by
  intro s x hdepth hs hx
  obtain ⟨hsame, hlog⟩ := h s x hx
  exact ⟨hsame.trans hdepth, hs.congr hsame hlog⟩

theorem ofExcept (result : Except EvalError α) :
    Counts limit start depth (Eval.ofExcept result) := by
  refine silent fun s x hx => ?_
  cases hx
  exact ⟨rfl, rfl⟩

theorem pure (a : α) : Counts limit start depth (Pure.pure a) := ofExcept (.ok a)

theorem lookup (name : String) : Counts limit start depth (Eval.lookup name) := by
  refine silent fun s x hx => ?_
  cases hname : s.env.get? name with
  | some v =>
    cases (Eval.lookup_of_some hname).symm.trans hx
    exact ⟨rfl, rfl⟩
  | none =>
    cases (Eval.lookup_of_none hname).symm.trans hx
    exact ⟨rfl, rfl⟩

theorem assign (name : String) (value : Value) :
    Counts limit start depth (Eval.assign name value) := by
  intro s x hdepth hs hx
  cases hx
  exact ⟨hdepth, hs.assigned name value⟩

theorem write (text : String) : Counts limit start depth (Eval.write text) := by
  refine silent fun s x hx => ?_
  rcases Eval.write_cases text s with ⟨sink, -, hwrite⟩ | ⟨fault, sink, -, hwrite⟩
  all_goals
    cases hwrite.symm.trans hx
    exact ⟨rfl, rfl⟩

theorem print (value : Value) : Counts limit start depth (Eval.print value) := by
  have hvalue : Counts limit start depth (Eval.writeValue value) := by
    induction value with
    | tuple first second ih₁ ih₂ =>
      exact .bind (write _) fun _ => .bind ih₁ fun _ => .bind (write _) fun _ =>
        .bind ih₂ fun _ => write _
    | _ => exact write _
  exact .bind hvalue fun _ => write _

/-- What follows the check of the limit may take for granted that the limit admits one more call. -/
theorem checkDepth_bind {next : Unit → Eval β}
    (hnext : (∀ l, limit = some l → depth < l) → Counts limit start depth (next ())) :
    Counts limit start depth (Eval.checkDepth limit >>= next) := by
  intro s x hdepth hs hx
  rcases Eval.checkDepth_cases limit s with ⟨hadmits, hcheck⟩ | ⟨l, -, -, hcheck⟩
  · rw [Eval.bind_of_ok hcheck] at hx
    exact hnext (hdepth ▸ hadmits) s x hdepth hs hx
  · rw [Eval.bind_of_error hcheck] at hx
    cases hx
    exact ⟨hdepth, hs⟩

variable {self : Expr → Eval Value}

theorem bindArguments (hself : ∀ e, Counts limit start depth (self e)) (frame : Env)
    (params : List String) (arguments : List Expr) :
    Counts limit start depth (Expr.bindArguments self frame params arguments) := by
  induction params generalizing arguments frame with
  | nil => exact pure frame
  | cons param params ih =>
    cases arguments with
    | nil => exact pure frame
    | cons argument arguments =>
      exact .bind (hself argument) fun v => .bind (ofExcept _) fun frame => ih frame arguments

/-- A call is left again, also if its body fails. -/
theorem inCall (hadmits : ∀ l, limit = some l → depth < l) {body : Eval Value}
    (hbody : Counts limit start (depth + 1) body) (params : List String) (frame : Env) :
    Counts limit start depth (Eval.inCall params frame body) := by
  intro s x hdepth hs hx
  obtain ⟨y, hy, rfl⟩ := Eval.inCall_eq_some hx
  have hentered : start.Counted limit (s.entered params frame) :=
    hs.entered (hdepth ▸ hadmits) params frame
  obtain ⟨hback, hcounted⟩ := hbody _ y (congrArg (· + 1) hdepth) hentered hy
  have hdeeper : start.depth ≤ s.depth := hs.deeper
  refine ⟨?_, hcounted.left (by omega) s.env⟩
  show y.2.depth - 1 = depth
  omega

theorem evalForm (hself : ∀ depth e, Counts limit start depth (self e)) (e : Expr) :
    Counts limit start depth (e.evalForm limit self) := by
  have hpart : ∀ e, Counts limit start depth (self e) := hself depth
  cases e with
  | str text => exact pure _
  | int n => exact pure _
  | bool b => exact pure _
  | tuple first second =>
    exact .bind (hpart first) fun _ => .bind (hpart second) fun _ => pure _
  | projection side source => exact .bind (hpart source) fun _ => ofExcept _
  | binary op lhs rhs => exact .bind (hpart lhs) fun _ => .bind (hpart rhs) fun _ => ofExcept _
  | letIn name value next =>
    exact .bind (hpart value) fun _ => .bind (assign name _) fun _ => hpart next
  | var name => exact lookup name
  | print inner => exact .bind (hpart inner) fun v => .bind (print v) fun _ => pure v
  | cond condition consequent alternative =>
    refine .bind (hpart condition) fun _ => .bind (ofExcept _) fun truth => ?_
    cases truth with
    | true => exact hpart consequent
    | false => exact hpart alternative
  | function params body => exact pure _
  | call callee arguments =>
    refine .bind (hpart callee) fun _ => .bind (ofExcept _) fun f => checkDepth_bind ?_
    intro hadmits
    have harguments : Counts limit start depth
        (Expr.bindArguments self Env.empty f.params arguments) :=
      bindArguments hpart Env.empty f.params arguments
    have hbody : Counts limit start (depth + 1) (self f.body) := hself (depth + 1) f.body
    exact .bind harguments fun frame => inCall hadmits hbody f.params frame

/-- Evaluations count calls and are back inside as many calls at the end. -/
theorem evaluate? (e : Expr) : Counts limit start depth (e.evaluate? limit) := by
  intro s x hdepth hs hx
  -- Bodies of functions are evaluated inside more calls, so the induction is for all depths.
  refine Expr.evaluate?_induction limit
    (fun e s x => ∀ depth, s.depth = depth → start.Counted limit s →
      x.2.depth = depth ∧ start.Counted limit x.2) ?_ hx depth hdepth hs
  intro self hself e s x hx depth hdepth hs
  rw [Expr.evalVia_apply] at hx
  refine evalForm ?_ e (s.started e) x hdepth (hs.started e) hx
  intro depth e s x hdepth hs hx
  exact hself e s x hx depth hdepth hs

end Eval.Counts

/-! ## Evaluations -/

/-- The events of a log that were added to another one are those of an evaluation that starts inside
`depth` calls. -/
def Log.Counts (log : Log) (limit : Option Nat) (depth : Nat) (log' : Log) : Prop :=
  ∃ added, log'.events.toList = log.events.toList ++ added ∧ Event.Numbered limit depth added

theorem State.Counted.counts {limit : Option Nat} {start s : State}
    (h : start.Counted limit s) : start.log.Counts limit start.depth s.log := by
  obtain ⟨added, hevents, hnumbered, -⟩ := h.events
  exact ⟨added, hevents, hnumbered⟩

theorem Evaluator.counted_evaluate? {ev : Evaluator} {e : Expr} {env : Env} {done : Evaluation}
    (h : ev.evaluate? e env = some done) :
    done.evaluator.limit = ev.limit ∧ done.evaluator.depth = ev.depth ∧
      ev.log.Counts ev.limit ev.depth done.evaluator.log := by
  obtain ⟨x, hx, rfl⟩ := Evaluator.evaluate?_eq_some.mp h
  have hstart : (ev.before env).Counted ev.limit (ev.before env) := .refl ev.limit _
  obtain ⟨hdepth, hcounted⟩ := Eval.Counts.evaluate? e (ev.before env) x rfl hstart hx
  exact ⟨rfl, hdepth, hcounted.counts⟩

end TreeLang
