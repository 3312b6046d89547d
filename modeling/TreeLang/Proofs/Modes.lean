import TreeLang.Command.Run
import TreeLang.Proofs.Layout
import TreeLang.Proofs.Loading
import TreeLang.Proofs.Reading

/-!
# The modes of the command

The command loads a tree, builds its expression, shows that if asked to, and evaluates it unless it
is only asked to check. Its stages are followed here for all arguments at once: a failure before the
evaluation does not depend on the mode, a check ends where the evaluation would begin, and showing
the expression adds to the messages and to nothing else. What is logged does not matter, so the
evaluation is the run of the expression, and that of the tree.
-/

namespace TreeLang

/-- What the command leaves corresponds to a run: it has the same output, and it fails exactly if
the run does, with the report of that failure at the end of the messages. -/
structure CommandResult.EndsLike (file : String) (done : CommandResult) (run : Run) : Prop where
  output : done.output = run.sink.written
  succeeds : done.status = 0 ↔ ∃ value, run.result = .ok value
  fails : ∀ failure, run.result = .error failure →
    done.status = 1 ∧ ∃ front, done.messages = front ++ failure.report file

/-- What the command leaves when it shows an expression, beside what it leaves when it does not: the
layout of the expression stands behind `front`, and all else is the same. -/
structure CommandResult.ShowsOutline (front : String) (e : Expr) (plain shown : CommandResult) :
    Prop where
  status : shown.status = plain.status
  output : shown.output = plain.output
  messages : ∃ back, plain.messages = front ++ back ∧
    shown.messages = front ++ (e.layout ++ "\n") ++ back

/-- The run of a tree is that of the expression which is built from it, or the failure to build
one. -/
theorem Tree.run?_cases (tree : Tree) (maxDepth : Option Nat) (sink : Sink) (log : Log) :
    (∃ cause log', Build.answer (Expr.ofProgram tree) Log.off = .error cause ∧
      tree.run? maxDepth sink log = some ⟨.error (.build cause), sink, log'⟩) ∨
    ∃ e log', Build.answer (Expr.ofProgram tree) Log.off = .ok e ∧
      tree.run? maxDepth sink log = e.run? maxDepth sink log' := by
  rw [Expr.answer_ofProgram tree Log.off (tree.announce log), Build.answer, Tree.run?]
  cases Expr.ofProgram tree (tree.announce log) with
  | error cause log' => exact .inl ⟨cause, log', rfl, rfl⟩
  | ok e log' => exact .inr ⟨e, log', rfl, rfl⟩

namespace Command

/-- What the stages before the evaluation lead to: an expression, or the failure of one of them. -/
def prepare (files : FileSystem) (file : String) : Except Failure Expr :=
  match Tree.load files file with
  | .error cause => .error (.load cause)
  | .ok tree => (Build.answer (Expr.ofProgram tree) Log.off).mapError .build

theorem prepare_of_load {files : FileSystem} {file : String} {tree : Tree}
    (h : Tree.load files file = .ok tree) :
    prepare files file = (Build.answer (Expr.ofProgram tree) Log.off).mapError .build := by
  rw [prepare, h]

/-! ## Before the evaluation -/

/-- The stages before the evaluation are the same in all modes: one of them fails and ends the
command, or the expression is evaluated as far as the arguments ask for it. -/
theorem perform?_cases (files : FileSystem) (filter : LogFilter) (file : String) (sink : Sink) :
    (∃ failure messages, prepare files file = .error failure ∧
      ∀ arguments : Arguments, arguments.file = file →
        perform? files filter arguments sink = some ⟨some failure, sink, messages⟩) ∨
    ∃ e log messages, prepare files file = .ok e ∧
      ∀ arguments : Arguments, arguments.file = file →
        perform? files filter arguments sink = evaluate? filter arguments e sink log messages := by
  cases hload : Tree.load files file with
  | error cause =>
    refine .inl ⟨.load cause, "", by rw [prepare, hload], ?_⟩
    rintro arguments rfl
    rw [perform?, hload]
  | ok tree =>
    -- What is built does not depend on the log, so it is the same with the log of the command.
    have hprepare : prepare files file =
        (Build.answer (Expr.ofProgram tree) ⟨filter.detail, #[]⟩).mapError .build := by
      rw [prepare_of_load hload, Expr.answer_ofProgram tree _ ⟨filter.detail, #[]⟩]
    rw [Build.answer] at hprepare
    cases hbuild : Expr.ofProgram tree ⟨filter.detail, #[]⟩ with
    | error cause log =>
      rw [hbuild] at hprepare
      refine .inl ⟨.build cause, logText filter log, hprepare, ?_⟩
      rintro arguments rfl
      rw [perform?, hload]
      dsimp only
      rw [hbuild]
    | ok e log =>
      rw [hbuild] at hprepare
      refine .inr ⟨e, emptied log, logText filter log, hprepare, ?_⟩
      rintro arguments rfl
      rw [perform?, hload]
      dsimp only
      rw [hbuild]

/-! ## The evaluation -/

/-- The same performance with more messages in front. -/
def Performance.behind (front : String) (done : Performance) : Performance :=
  { done with messages := front ++ done.messages }

theorem Performance.result_behind (file front : String) (done : Performance) :
    (done.behind front).result file =
      { done.result file with messages := front ++ (done.result file).messages } := by
  unfold Performance.result Performance.behind
  rcases done.failure with _ | failure
  · rfl
  · simp only [String.append_assoc]

/-- What was performed corresponds to a run: it has the same output and the same failure. -/
structure Performance.Runs (done : Performance) (run : Run) : Prop where
  sink : done.sink = run.sink
  failure : ∀ failure, done.failure = some failure ↔ run.result = .error failure

theorem Performance.Runs.endsLike {done : Performance} {run : Run} (h : done.Runs run)
    (file front : String) : ((done.behind front).result file).EndsLike file run := by
  have houtput : ((done.behind front).result file).output = run.sink.written := by
    rw [result_behind, ← h.sink]
    unfold Performance.result
    split <;> rfl
  rw [result_behind] at houtput ⊢
  refine ⟨houtput, ?_, ?_⟩
  · rcases hresult : run.result with failure | value
    · have hfailure := (h.failure failure).mpr hresult
      simp [Performance.result, hfailure]
    · have hnone : done.failure = none := by
        refine Option.eq_none_iff_forall_ne_some.mpr fun failure hfailure => ?_
        cases hresult.symm.trans ((h.failure failure).mp hfailure)
      simp [Performance.result, hnone]
  · intro failure hresult
    have hfailure := (h.failure failure).mpr hresult
    refine ⟨?_, front ++ done.messages, ?_⟩
    · simp only [Performance.result, hfailure]
    · simp only [Performance.result, hfailure, String.append_assoc]

section

variable {filter : LogFilter} {file : String} {check dump verbose : Bool} {maxDepth : Option Nat}
  {e : Expr} {sink : Sink} {log : Log} {messages : String}

/-- Showing the expression only puts its layout in front of what is written later. -/
theorem evaluate?_dump (dump : Bool) (messages : String) :
    evaluate? filter ⟨file, check, dump, maxDepth, verbose⟩ e sink log messages =
      (evaluate? filter ⟨file, check, false, maxDepth, verbose⟩ e sink log "").map
        (Performance.behind (messages ++ if dump then e.layout ++ "\n" else "")) := by
  have hshown : (if dump then messages ++ e.outlineText ++ "\n" else messages) =
      messages ++ if dump then e.layout ++ "\n" else "" := by
    cases dump <;> simp [Expr.outlineText_eq_layout, String.append_assoc]
  cases check with
  | true => simp [evaluate?, Performance.behind, hshown]
  | false =>
    simp only [evaluate?, hshown, Bool.false_eq_true, if_false, Option.map_map]
    congr 1
    funext done
    rcases hresult : done.result with cause | value <;>
      simp [Function.comp, hresult, Performance.behind]

/-- An expression that is not only checked is run, whatever is logged. -/
theorem evaluate?_runs (log' : Log) :
    Option.Rel Performance.Runs
      (evaluate? filter ⟨file, false, false, maxDepth, verbose⟩ e sink log messages)
      (e.run? maxDepth sink log') := by
  have hrel := Expr.run?_of_log maxDepth e sink log log'
  simp only [evaluate?, Bool.false_eq_true, if_false]
  refine Correspondence.rel_map_first (fun run run' halike => ?_) hrel
  rw [halike.result]
  rcases hresult : run'.result with cause | value
  · refine ⟨halike.sink, fun failure => ?_⟩
    simp [hresult]
  · refine ⟨halike.sink, fun failure => ?_⟩
    simp [hresult]

theorem evaluate?_endsLike (log' : Log) :
    Option.Rel (CommandResult.EndsLike file)
      ((evaluate? filter ⟨file, false, dump, maxDepth, verbose⟩ e sink log messages).map
        (Performance.result file))
      (e.run? maxDepth sink log') := by
  rw [evaluate?_dump, Option.map_map]
  exact Correspondence.rel_map_first (fun done run hruns => hruns.endsLike file _)
    (evaluate?_runs log')

theorem evaluate?_showsOutline :
    Option.Rel (CommandResult.ShowsOutline messages e)
      ((evaluate? filter ⟨file, check, false, maxDepth, verbose⟩ e sink log messages).map
        (Performance.result file))
      ((evaluate? filter ⟨file, check, true, maxDepth, verbose⟩ e sink log messages).map
        (Performance.result file)) := by
  rw [evaluate?_dump true, evaluate?_dump false messages]
  generalize evaluate? filter ⟨file, check, false, maxDepth, verbose⟩ e sink log "" = done?
  cases done? with
  | none => exact .none
  | some done =>
    refine .some ?_
    rw [Performance.result_behind, Performance.result_behind]
    exact ⟨rfl, rfl, (done.result file).messages, by simp, by simp⟩

end

/-! ## The modes side by side -/

section

variable {files : FileSystem} {file : String} {failure : Failure} {e : Expr}

/-- If a stage before the evaluation fails, then the command fails with that in all modes. -/
theorem execute?_of_failure (settings : Settings) (maxDepth : Option Nat) (verbose : Bool)
    (sink : Sink) (h : prepare files file = .error failure) :
    ∃ front, ∀ check dump,
      execute? files settings ⟨file, check, dump, maxDepth, verbose⟩ sink =
        some ⟨1, sink.written, front ++ failure.report file⟩ := by
  rcases perform?_cases files (filter settings verbose) file sink with
    ⟨failure', messages, hprepare, hperform⟩ | ⟨e, log, messages, hprepare, -⟩
  · cases hprepare.symm.trans h
    refine ⟨messages, fun check dump => ?_⟩
    rw [execute?, hperform _ rfl]
    rfl
  · cases hprepare.symm.trans h

/-- If the stages before the evaluation lead to an expression, then the command evaluates that in
all modes. -/
theorem execute?_of_expr (settings : Settings) (maxDepth : Option Nat) (verbose : Bool)
    (sink : Sink) (h : prepare files file = .ok e) :
    ∃ log messages, ∀ check dump,
      execute? files settings ⟨file, check, dump, maxDepth, verbose⟩ sink =
        (evaluate? (filter settings verbose) ⟨file, check, dump, maxDepth, verbose⟩ e sink log
          messages).map (Performance.result file) := by
  rcases perform?_cases files (filter settings verbose) file sink with
    ⟨failure, messages, hprepare, -⟩ | ⟨e', log, messages, hprepare, hperform⟩
  · cases hprepare.symm.trans h
  · cases hprepare.symm.trans h
    refine ⟨log, messages, fun check dump => ?_⟩
    rw [execute?, hperform _ rfl]

theorem execute?_endsLike (settings : Settings) (dump : Bool) (maxDepth : Option Nat)
    (verbose : Bool) (sink : Sink) (log : Log) (h : prepare files file = .ok e) :
    Option.Rel (CommandResult.EndsLike file)
      (execute? files settings ⟨file, false, dump, maxDepth, verbose⟩ sink)
      (e.run? maxDepth sink log) := by
  obtain ⟨log', messages, hexecute⟩ := execute?_of_expr settings maxDepth verbose sink h
  rw [hexecute]
  exact evaluate?_endsLike log

/-- If there is a tree, then the command without options ends like the run of that, also if no
expression can be built from it. -/
theorem execute?_endsLike_tree {tree : Tree} (settings : Settings) (maxDepth : Option Nat)
    (verbose : Bool) (sink : Sink) (log : Log) (htree : Tree.load files file = .ok tree) :
    Option.Rel (CommandResult.EndsLike file)
      (execute? files settings ⟨file, false, false, maxDepth, verbose⟩ sink)
      (tree.run? maxDepth sink log) := by
  rcases tree.run?_cases maxDepth sink log with
    ⟨cause, log', hbuild, hrun⟩ | ⟨e, log', hbuild, hrun⟩
  · have hprepare : prepare files file = .error (.build cause) := by
      rw [prepare_of_load htree, hbuild]
      rfl
    obtain ⟨front, hexecute⟩ := execute?_of_failure settings maxDepth verbose sink hprepare
    rw [hexecute, hrun]
    refine .some ⟨rfl, by simp, ?_⟩
    rintro _ ⟨⟩
    exact ⟨rfl, front, rfl⟩
  · have hprepare : prepare files file = .ok e := by
      rw [prepare_of_load htree, hbuild]
      rfl
    rw [hrun]
    exact execute?_endsLike settings false maxDepth verbose sink log' hprepare

end

/-- The modes of the command agree stage by stage, for any arguments of the other options.

If loading or building fails, then the command fails with that in all modes, and no mode prints
anything. Otherwise a check succeeds and prints nothing, whatever the expression would do, and
without a check the command ends like the run of the expression. Showing the expression changes
neither the status nor what is printed; its layout is written if there is an expression, in front
of what the evaluation leaves. Without both options the command ends like the run of the tree. -/
theorem execute?_modes (files : FileSystem) (settings : Settings) (file : String)
    (maxDepth : Option Nat) (verbose : Bool) (log : Log) :
    let outcome (check dump : Bool) : Option CommandResult :=
      execute? files settings ⟨file, check, dump, maxDepth, verbose⟩ Sink.unlimited
    (∀ failure, prepare files file = .error failure → ∃ front, ∀ check dump,
      outcome check dump = some ⟨1, ByteArray.empty, front ++ failure.report file⟩) ∧
    (∀ e, prepare files file = .ok e →
      (∀ dump, ∃ messages, outcome true dump = some ⟨0, ByteArray.empty, messages⟩) ∧
      (∀ dump, Option.Rel (CommandResult.EndsLike file) (outcome false dump)
        (e.run? maxDepth Sink.unlimited log)) ∧
      ∃ front, ∀ check, Option.Rel (CommandResult.ShowsOutline front e) (outcome check false)
        (outcome check true)) ∧
    ∀ tree, Tree.load files file = .ok tree →
      Option.Rel (CommandResult.EndsLike file) (outcome false false)
        (tree.run? maxDepth Sink.unlimited log) := by
  intro outcome
  refine ⟨?_, ?_, ?_⟩
  · intro failure hfailure
    exact execute?_of_failure settings maxDepth verbose Sink.unlimited hfailure
  · intro e he
    obtain ⟨log', messages, hexecute⟩ :=
      execute?_of_expr settings maxDepth verbose Sink.unlimited he
    refine ⟨?_, ?_, messages, ?_⟩
    · intro dump
      exact ⟨_, hexecute true dump⟩
    · intro dump
      exact execute?_endsLike settings dump maxDepth verbose Sink.unlimited log he
    · intro check
      show Option.Rel _ (execute? ..) (execute? ..)
      rw [hexecute, hexecute]
      exact evaluate?_showsOutline
  · intro tree htree
    exact execute?_endsLike_tree settings maxDepth verbose Sink.unlimited log htree

/-- A program that prints and then fails, because what it printed is no pair: the command has
printed when it fails, with and without the layout of the program, and a check of the same program
succeeds. -/
theorem execute?_modes_failing :
    let text := "\x7b\"expression\":\x7b\"kind\":\"First\",\"value\":\x7b\"kind\":\"Print\"," ++
      "\"value\":\x7b\"kind\":\"Str\",\"value\":\"a\\\"\\u200b\"\x7d\x7d\x7d\x7d"
    let outcome (check dump : Bool) : Option CommandResult :=
      execute? (fun _ => .ok text.toUTF8) ⟨none, none, none⟩ ⟨"a.json", check, dump, none, false⟩
        Sink.unlimited
    let layout := "Projection \x7b\n" ++
      "    which: First,\n" ++
      "    source: Print(\n" ++
      "        Str(\n" ++
      "            \"a\\\"\\u\x7b200b\x7d\",\n" ++
      "        ),\n" ++
      "    ),\n" ++
      "\x7d\n"
    (∀ dump, ∃ messages, outcome true dump = some ⟨0, ByteArray.empty, messages⟩) ∧
    (∀ dump, ∃ done, outcome false dump = some done ∧ done.status = 1 ∧
      done.output = "a\"\u200b\n".toUTF8) ∧
    ∃ front, ∀ check, ∃ plain shown back, outcome check false = some plain ∧
      outcome check true = some shown ∧ plain.messages = front ++ back ∧
      shown.messages = front ++ layout ++ back := by
  intro text outcome layout
  let e : Expr := .projection .first (.print (.str "a\"\u200b"))
  let tree : Tree := .object [("expression", .object [("kind", .str "First"), ("value", .object
    [("kind", .str "Print"), ("value", .object
      [("kind", .str "Str"), ("value", .str "a\"\u200b")])])])]
  have hload : Tree.load (fun _ => .ok text.toUTF8) "a.json" = .ok tree := by
    have hpath : Path.isTree "a.json" = true := by decide
    have htext : FileSystem.readText (fun _ => .ok text.toUTF8) "a.json" = .ok text :=
      FileSystem.readText_eq_ok.mpr rfl
    have htree : Tree.ofText text = .ok tree := by
      subst text tree
      with_unfolding_all rfl
    rw [Tree.load, if_pos hpath, htext]
    dsimp only
    rw [htree]
    rfl
  have hprepare : prepare (fun _ => .ok text.toUTF8) "a.json" = .ok e := by
    rw [prepare_of_load hload]
    subst e tree
    with_unfolding_all rfl
  have hlayout : e.layout ++ "\n" = layout := by
    subst e layout
    decide +kernel
  have hrun : e.run? none Sink.unlimited Log.off =
      some ⟨.error (.eval (.type (.projection .str))), ⟨none, .full, none, "a\"\u200b\n".toUTF8⟩,
        Log.off⟩ := by
    subst e
    rw [Expr.run?_eq, Expr.evaluate?_of_within 3 rfl]
    rfl
  obtain ⟨-, hmodes, -⟩ :=
    execute?_modes (fun _ => .ok text.toUTF8) ⟨none, none, none⟩ "a.json" none false Log.off
  obtain ⟨hcheck, hends, front, hshows⟩ := hmodes e hprepare
  have hend : ∀ dump, ∃ done, outcome false dump = some done ∧ done.status = 1 ∧
      done.output = "a\"\u200b\n".toUTF8 := by
    intro dump
    have hrel := hends dump
    rw [hrun] at hrel
    obtain ⟨done, hdone, hlike⟩ := Correspondence.exists_of_rel hrel
    exact ⟨done, hdone, (hlike.fails _ rfl).1, hlike.output⟩
  refine ⟨hcheck, hend, front, fun check => ?_⟩
  obtain ⟨shown, hshown⟩ : ∃ shown, outcome check true = some shown := by
    cases check with
    | true =>
      obtain ⟨_, hdone⟩ := hcheck true
      exact ⟨_, hdone⟩
    | false =>
      obtain ⟨done, hdone, -⟩ := hend true
      exact ⟨done, hdone⟩
  have hrel : Option.Rel (CommandResult.ShowsOutline front e) (outcome check false)
      (outcome check true) := hshows check
  rw [hshown] at hrel
  obtain ⟨plain, hplain, hlike⟩ := Correspondence.exists_of_rel hrel
  obtain ⟨back, hback, hmessages⟩ := hlike.messages
  rw [hlayout] at hmessages
  exact ⟨plain, shown, back, hplain, hshown, hback, hmessages⟩

end Command

end TreeLang
