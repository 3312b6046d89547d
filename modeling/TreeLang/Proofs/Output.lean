import TreeLang.Program

/-!
# Sinks that fail

Nothing but output looks at the sink, and a write that fails ends the evaluation. So a run on a sink
that accepts `n` bytes follows the run on one that never fails until more than `n` bytes are
written. The write that goes beyond leaves exactly the first `n` of them, wherever it is: between
two lines, before the end of a line, or inside the text of a pair.
-/

namespace TreeLang

open Eval (bind_of_ok bind_of_error bind_eq_some)

/-! ## Bounded sinks -/

namespace Sink

/-- A sink that holds the same and accepts `n` bytes in total, with the faults that it fails with. -/
def bounded (n : Nat) (fullFault : WriteFault) (flushFault : Option WriteFault) (sink : Sink) :
    Sink :=
  ⟨some n, fullFault, flushFault, sink.written⟩

variable {n : Nat} {fullFault : WriteFault} {flushFault : Option WriteFault}
  {sink later : Sink} {bytes : ByteArray}

/-- What a sink holds does not become less. -/
theorem GrowsTo.size_le (h : sink.GrowsTo later) : sink.written.size ≤ later.written.size := by
  obtain ⟨bytes, rfl⟩ := h
  simp only [append, ByteArray.size_append]
  omega

/-- The first bytes that a sink holds stay the same. -/
theorem GrowsTo.extract (h : sink.GrowsTo later) (hn : n ≤ sink.written.size) :
    later.written.extract 0 n = sink.written.extract 0 n := by
  obtain ⟨bytes, rfl⟩ := h
  simp only [append, ByteArray.extract_append]
  rw [Nat.sub_eq_zero_of_le hn, Nat.zero_sub, ByteArray.extract_same, ByteArray.append_empty]

/-- What fits is written. -/
theorem write_bounded (h : (sink.append bytes).written.size ≤ n) :
    (sink.bounded n fullFault flushFault).write bytes =
      (none, (sink.append bytes).bounded n fullFault flushFault) := by
  have hfits : bytes.size ≤ n - sink.written.size := by
    simp only [append, ByteArray.size_append] at h
    omega
  exact if_pos hfits

/-- What does not fit is cut at the capacity. -/
theorem write_bounded_full (hn : sink.written.size ≤ n)
    (h : n < (sink.append bytes).written.size) :
    (sink.bounded n fullFault flushFault).write bytes =
      (some fullFault, ⟨some n, fullFault, flushFault, (sink.append bytes).written.extract 0 n⟩) := by
  have hlong : ¬ bytes.size ≤ n - sink.written.size := by
    simp only [append, ByteArray.size_append] at h
    omega
  have hcut : sink.written ++ bytes.extract 0 (n - sink.written.size) =
      (sink.append bytes).written.extract 0 n := by
    have hall : sink.written.extract 0 n = sink.written := by
      rw [← Nat.max_eq_left hn, ByteArray.extract_zero_max_size]
    rw [append, ByteArray.extract_append, hall, Nat.zero_sub]
  rw [← hcut]
  exact if_neg hlong

end Sink

/-- The state with a bounded sink that holds the same. -/
def State.bounded (n : Nat) (fullFault : WriteFault) (flushFault : Option WriteFault) (s : State) :
    State :=
  { s with sink := s.sink.bounded n fullFault flushFault }

/-! ## Runs side by side -/

section SideBySide

variable {α : Type} {n : Nat} {fullFault : WriteFault} {flushFault : Option WriteFault}

/-- What becomes of an evaluation that ends with `x` if its sink is bounded: it ends in the same way
if what it writes fits, and is cut otherwise. -/
structure BoundedAlike (n : Nat) (fullFault : WriteFault) (flushFault : Option WriteFault)
    (s : State) (x : Outcome α) (second : Eval α) : Prop where
  /-- The sink that never fails only grows. -/
  grows : s.sink.GrowsTo x.2.sink
  /-- What fits is written, and the result is the same. -/
  fits : x.2.sink.written.size ≤ n →
    second (s.bounded n fullFault flushFault) = some (x.1, x.2.bounded n fullFault flushFault)
  /-- What does not fit is cut, which is an error. -/
  full : s.sink.written.size ≤ n → n < x.2.sink.written.size →
    ∃ t, second (s.bounded n fullFault flushFault) = some (.error (.output fullFault), t) ∧
      t.sink.written = x.2.sink.written.extract 0 n

/-- A step that leaves the sink alone and does not depend on it. -/
theorem BoundedAlike.of_sink_eq {s : State} {x : Outcome α} {second : Eval α}
    (hsink : x.2.sink = s.sink)
    (h : second (s.bounded n fullFault flushFault) =
      some (x.1, x.2.bounded n fullFault flushFault)) :
    BoundedAlike n fullFault flushFault s x second where
  grows := by
    rw [hsink]
    exact .refl _
  fits := fun _ => h
  full := by
    intro hs hx
    rw [hsink] at hx
    omega

/-- A sink that accepts so many bytes changes an evaluation only where more are written. -/
theorem Eval.simulation_bounded (limit : Option Nat) (n : Nat) (fullFault : WriteFault)
    (flushFault : Option WriteFault) :
    Eval.Simulation limit (fun _ : Unit => limit) fun s x second =>
      s.sink.capacity = none → BoundedAlike n fullFault flushFault s x (second ()) where
  act := by
    intro α f hf s x hx _
    cases hx
    refine .of_sink_eq (hf.sink s) ?_
    show some (f { s with sink := s.sink.bounded n fullFault flushFault }) = _
    rw [hf.withSink, ← hf.sink s]
    rfl
  write := by
    intro text s x hx hs
    cases (Eval.write_of_none (Sink.write_of_capacity hs _)).symm.trans hx
    refine ⟨⟨_, rfl⟩, fun hfits => ?_, fun hn hfull => ?_⟩
    · exact Eval.write_of_none (s := s.bounded n fullFault flushFault) (Sink.write_bounded hfits)
    · exact ⟨_, Eval.write_of_some (s := s.bounded n fullFault flushFault)
        (Sink.write_bounded_full hn hfull), rfl⟩
  checkDepth := by
    intro s x hx _
    -- Both states are inside the same number of calls.
    rcases Eval.checkDepth_cases limit s with ⟨hlt, h⟩ | ⟨l, hlimit, hle, h⟩
    all_goals
      rw [h] at hx
      cases hx
      refine .of_sink_eq rfl ?_
      rcases Eval.checkDepth_cases limit (s.bounded n fullFault flushFault) with
        ⟨hlt', h'⟩ | ⟨l', hlimit', hle', h'⟩
    · exact h'
    · exact absurd hle' (Nat.not_le_of_lt (hlt l' hlimit'))
    · exact absurd hle (Nat.not_le_of_lt (hlt' l hlimit))
    · cases hlimit.symm.trans hlimit'
      exact h'
  bind := by
    intro α β first second next next' hfirst hnext s x h hs
    rcases bind_eq_some h with ⟨a, t, h₁, h₂⟩ | ⟨cause, t, h₁, rfl⟩
    · have hfirst := hfirst s _ h₁ hs
      have ht : t.sink.capacity = none := by
        obtain ⟨bytes, ht⟩ := hfirst.grows
        rw [ht]
        exact hs
      have hnext := hnext a t x h₂ ht
      refine ⟨hfirst.grows.trans hnext.grows, fun hfits => ?_, fun hn hfull => ?_⟩
      · have hsize : t.sink.written.size ≤ n := Nat.le_trans hnext.grows.size_le hfits
        exact (bind_of_ok (hfirst.fits hsize)).trans (hnext.fits hfits)
      · -- The write that goes beyond the capacity is in the first step or in what follows.
        by_cases hsize : t.sink.written.size ≤ n
        · obtain ⟨u, hu, hwritten⟩ := hnext.full hsize hfull
          exact ⟨u, (bind_of_ok (hfirst.fits hsize)).trans hu, hwritten⟩
        · have hover : n < t.sink.written.size := Nat.lt_of_not_le hsize
          obtain ⟨u, hu, hwritten⟩ := hfirst.full hn hover
          exact ⟨u, bind_of_error hu, hwritten.trans (hnext.grows.extract (Nat.le_of_lt hover)).symm⟩
    · have hfirst := hfirst s _ h₁ hs
      refine ⟨hfirst.grows, fun hfits => bind_of_error (hfirst.fits hfits), fun hn hfull => ?_⟩
      obtain ⟨u, hu, hwritten⟩ := hfirst.full hn hfull
      exact ⟨u, bind_of_error hu, hwritten⟩
  inCall := by
    intro params arguments first second h s x hx hs
    obtain ⟨y, hy, rfl⟩ := Eval.inCall_eq_some hx
    have hbody := h _ y hy hs
    refine ⟨hbody.grows, fun hfits => ?_, fun hn hfull => ?_⟩
    · exact Eval.inCall_of_some (s := s.bounded n fullFault flushFault) (hbody.fits hfits)
    · obtain ⟨u, hu, hwritten⟩ := hbody.full hn hfull
      exact ⟨u.left s.env, Eval.inCall_of_some (s := s.bounded n fullFault flushFault) hu, hwritten⟩

end SideBySide

/-! ## Runs of programs -/

/-- The result of a run whose evaluation and flushing end like this. An error of the evaluation
wins. -/
def Run.resultOf (result : Except EvalError Value) (flushFault : Option WriteFault) :
    Except Failure Value :=
  match result, flushFault with
  | .error cause, _ => .error (.eval cause)
  | .ok _, some fault => .error (.eval (.output fault))
  | .ok value, none => .ok value

/-- A run is an evaluation in an empty environment, and a flush of the sink that it leaves. -/
theorem Expr.run?_eq (limit : Option Nat) (e : Expr) (sink : Sink) (log : Log) :
    e.run? limit sink log = (e.evaluate? limit ⟨Env.empty, 0, sink, log⟩).map fun x =>
      ⟨Run.resultOf x.1 x.2.sink.flushFault, x.2.sink, x.2.log⟩ := by
  refine (Option.map_map ..).trans ((Option.map_map ..).trans (congrArg (Option.map · _) ?_))
  funext ⟨result, s⟩
  rcases result with cause | value <;> rcases hflush : s.sink.flushFault with _ | fault
  all_goals
    simp only [Function.comp, Evaluator.after, Evaluator.flush, hflush]
    rfl

/-- A sink that fails cuts the output at exactly its capacity, and nothing else changes. If a run
on a sink that never fails prints more than `n` bytes, the run on a sink that accepts `n` bytes ends
with the error of the full sink and prints the first `n` of them. If not, it prints the same, and it
ends in the same way unless flushing fails: then a value becomes the error of flushing, while an
error stays what it is. -/
theorem Expr.run?_bounded {limit : Option Nat} {e : Expr} {log : Log} {run : Run}
    (h : e.run? limit Sink.unlimited log = some run) (n : Nat) (fullFault : WriteFault)
    (flushFault : Option WriteFault) :
    ∃ run', e.run? limit ⟨some n, fullFault, flushFault, ByteArray.empty⟩ log = some run' ∧
      (n < run.sink.written.size →
        run'.sink.written = run.sink.written.extract 0 n ∧
          run'.result = .error (.eval (.output fullFault))) ∧
      (run.sink.written.size ≤ n →
        run'.sink.written = run.sink.written ∧
          run'.result = match run.result, flushFault with
            | .error cause, _ => .error cause
            | .ok _, some fault => .error (.eval (.output fault))
            | .ok value, none => .ok value) := by
  rw [Expr.run?_eq, Option.map_eq_some_iff] at h
  obtain ⟨x, hx, rfl⟩ := h
  have hbounded :=
    (Eval.simulation_bounded limit n fullFault flushFault).evaluate? e _ x hx rfl
  have hflush : x.2.sink.flushFault = none := by
    obtain ⟨bytes, hsink⟩ := hbounded.grows
    rw [hsink]
    rfl
  rw [Expr.run?_eq]
  by_cases hsize : x.2.sink.written.size ≤ n
  · refine ⟨_, Option.map_eq_some_iff.mpr ⟨_, hbounded.fits hsize, rfl⟩, fun hfull => ?_,
      fun _ => ⟨rfl, ?_⟩⟩
    · exact absurd hsize (Nat.not_le_of_lt hfull)
    · rw [hflush]
      rcases x.1 with cause | value <;> cases flushFault <;> rfl
  · obtain ⟨t, ht, hwritten⟩ := hbounded.full (Nat.zero_le n) (Nat.lt_of_not_le hsize)
    refine ⟨_, Option.map_eq_some_iff.mpr ⟨_, ht, rfl⟩, fun _ => ⟨hwritten, rfl⟩, fun hfits => ?_⟩
    exact absurd hfits hsize

/-- A pair that is printed on a sink that accepts three bytes. -/
theorem Expr.run?_bounded_pair :
    ∃ run', (Expr.print (.tuple (.str "a") (.str "b"))).run? none
        ⟨some 3, .full, some .closed, ByteArray.empty⟩ Log.off = some run' ∧
      run'.sink.written = "(a,".toUTF8 ∧ run'.result = .error (.eval (.output .full)) := by
  have hrun : (Expr.print (.tuple (.str "a") (.str "b"))).run? none Sink.unlimited Log.off =
      some ⟨.ok (.tuple (.str "a") (.str "b")), ⟨none, .full, none, "(a, b)\n".toUTF8⟩,
        Log.off⟩ := by
    rw [Expr.run?_eq, Expr.evaluate?_of_within 3 rfl]
    rfl
  obtain ⟨run', hrun', hfull, -⟩ := Expr.run?_bounded hrun 3 .full (some .closed)
  obtain ⟨hwritten, hresult⟩ := hfull (by decide)
  exact ⟨run', hrun', hwritten.trans (by decide), hresult⟩

end TreeLang
