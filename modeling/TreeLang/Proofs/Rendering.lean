import TreeLang.Proofs.Literals

/-!
# Texts of values

A pair is printed without any escaping: a text inside it may look like a component, a comma or a
parenthesis. Without texts the rendering is unambiguous. Its first character tells the type of the
value, and what follows a component never continues a numeral, so one sees where each component
ends. Only functions are not told apart.
-/

namespace TreeLang

open Eval (bind_of_ok bind_eq_ok)

/-! ## What is inside a value -/

namespace Value

/-- No value of this type is in the value, at any depth. -/
def Lacks (type : ValueType) : Value → Prop
  | .tuple first second => type ≠ .tuple ∧ first.Lacks type ∧ second.Lacks type
  | .str _ => type ≠ .str
  | .int _ => type ≠ .int
  | .bool _ => type ≠ .bool
  | .closure _ => type ≠ .closure

instance decidableLacks (type : ValueType) : (v : Value) → Decidable (v.Lacks type)
  | .tuple first second =>
    have := decidableLacks type first
    have := decidableLacks type second
    inferInstanceAs (Decidable (_ ∧ _ ∧ _))
  | .str _ | .int _ | .bool _ | .closure _ => inferInstanceAs (Decidable (_ ≠ _))

/-- Neither texts nor functions are in the value. -/
structure Plain (v : Value) : Prop where
  noText : v.Lacks .str
  noFunction : v.Lacks .closure

/-- The values are the same but for their functions, and have these in the same places. -/
def SameShape : Value → Value → Prop := Value.Alike fun _ _ => True

theorem SameShape.eq_of_lacks {v w : Value} (h : v.SameShape w) (hv : v.Lacks .closure) :
    v = w := by
  induction h with
  | str text => rfl
  | int n => rfl
  | bool b => rfl
  | tuple _ _ ih₁ ih₂ =>
    obtain ⟨-, hfirst, hsecond⟩ := hv
    rw [ih₁ hfirst, ih₂ hsecond]
  | closure _ => exact absurd rfl hv

end Value

/-! ## Where a value ends -/

namespace Numeral

/-- The character may stand in a numeral as it is printed. -/
def isPart (c : Char) : Bool := c.isDigit || c == '-'

/-- The text does not continue a numeral in front of it. -/
def Stops (rest : List Char) : Prop := rest.takeWhile isPart = []

theorem Stops.nil : Stops [] := rfl

theorem Stops.cons {c : Char} {rest : List Char} (hc : isPart c = false) : Stops (c :: rest) :=
  List.takeWhile_cons_of_neg (by rw [hc]; exact Bool.false_ne_true)

theorem isPart_of_mem_ofInt {n : Int} {c : Char} (hc : c ∈ ofInt n) : isPart c = true := by
  have hdigits := (allDigits_toDigits n.natAbs).2
  by_cases hn : n < 0
  · rw [ofInt_of_neg hn] at hc
    rcases List.mem_cons.mp hc with rfl | hc
    · rfl
    · rw [isPart, hdigits c hc, Bool.true_or]
  · rw [ofInt_of_nonneg hn] at hc
    rw [isPart, hdigits c hc, Bool.true_or]

/-- The numeral is all that can be taken off in front. -/
theorem takeWhile_ofInt_append {n : Int} {rest : List Char} (h : Stops rest) :
    (ofInt n ++ rest).takeWhile isPart = ofInt n := by
  rw [List.takeWhile_append_of_pos fun c hc => isPart_of_mem_ofInt hc, h, List.append_nil]

theorem exists_ofInt_eq_cons (n : Int) : ∃ c rest, ofInt n = c :: rest ∧ isPart c = true := by
  cases htext : ofInt n with
  | nil =>
    have hspells := spells_ofInt n
    rw [htext] at hspells
    cases hspells with
    | unsigned hdigits => exact absurd rfl hdigits.1
  | cons c rest =>
    have hc : c ∈ ofInt n := by
      rw [htext]
      exact List.mem_cons_self
    exact ⟨c, rest, rfl, isPart_of_mem_ofInt hc⟩

end Numeral

namespace Value

/-- The type of the values without texts that begin with this character. -/
def typeOfOpening (c : Char) : ValueType :=
  if c = '(' then .tuple
  else if c = '<' then .closure
  else if c = 't' ∨ c = 'f' then .bool
  else .int

theorem typeOfOpening_of_isPart {c : Char} (hc : Numeral.isPart c = true) :
    typeOfOpening c = .int := by
  have hne : ∀ other, Numeral.isPart other = false → c ≠ other := by
    rintro other hother rfl
    rw [hc] at hother
    cases hother
  rw [typeOfOpening, if_neg (hne '(' (by decide)), if_neg (hne '<' (by decide)), if_neg]
  rintro (ht | hf)
  · exact hne 't' (by decide) ht
  · exact hne 'f' (by decide) hf

theorem toList_render_tuple (first second : Value) :
    (tuple first second).render.toList =
      '(' :: (first.render.toList ++ (',' :: ' ' :: (second.render.toList ++ [')']))) := by
  simp [render, String.toList_append]

theorem exists_opening {v : Value} (hv : v.Lacks .str) :
    ∃ c rest, v.render.toList = c :: rest ∧ typeOfOpening c = v.type := by
  cases v with
  | str text => exact absurd rfl hv
  | int n =>
    obtain ⟨c, rest, htext, hc⟩ := Numeral.exists_ofInt_eq_cons n.toInt
    refine ⟨c, rest, ?_, typeOfOpening_of_isPart hc⟩
    rw [render, toList_renderInt, htext]
  | bool b =>
    cases b with
    | true => exact ⟨'t', "rue".toList, by decide, by decide⟩
    | false => exact ⟨'f', "alse".toList, by decide, by decide⟩
  | tuple first second => exact ⟨'(', _, toList_render_tuple first second, rfl⟩
  | closure f =>
    refine ⟨'<', "#closure>".toList, ?_, rfl⟩
    rw [render]
    decide

section

variable {v w : Value} {rest rest' : List Char}

theorem type_eq_of_render (hv : v.Lacks .str) (hw : w.Lacks .str)
    (h : v.render.toList ++ rest = w.render.toList ++ rest') : v.type = w.type := by
  obtain ⟨c, more, hmore, hc⟩ := exists_opening hv
  obtain ⟨d, more', hmore', hd⟩ := exists_opening hw
  rw [hmore, hmore'] at h
  obtain ⟨rfl, -⟩ := List.cons.inj h
  exact hc.symm.trans hd

/-- One sees where the text of a value ends. -/
theorem sameShape_of_render (hv : v.Lacks .str) (hw : w.Lacks .str) (hrest : Numeral.Stops rest)
    (hrest' : Numeral.Stops rest') (h : v.render.toList ++ rest = w.render.toList ++ rest') :
    v.SameShape w ∧ rest = rest' := by
  -- By its first character, the other value has the same type. A component is followed by more of
  -- the pair, so the induction is for whatever follows.
  induction v generalizing w rest rest' with
  | str text => exact absurd rfl hv
  | int n =>
    cases w with
    | int m =>
      rw [render, render, toList_renderInt, toList_renderInt] at h
      have htaken := congrArg (List.takeWhile Numeral.isPart) h
      rw [Numeral.takeWhile_ofInt_append hrest, Numeral.takeWhile_ofInt_append hrest'] at htaken
      obtain rfl : n = m := Int32.toInt_inj.mp (Numeral.ofInt_injective htaken)
      exact ⟨.int n, List.append_cancel_left h⟩
    | _ => cases type_eq_of_render hv hw h
  | bool b =>
    cases w with
    | bool c =>
      cases b with
      | true =>
        cases c with
        | true => exact ⟨.bool true, List.append_cancel_left h⟩
        | false => cases (List.cons.inj h).1
      | false =>
        cases c with
        | true => cases (List.cons.inj h).1
        | false => exact ⟨.bool false, List.append_cancel_left h⟩
    | _ => cases type_eq_of_render hv hw h
  | tuple first second ih₁ ih₂ =>
    cases w with
    | tuple first' second' =>
      obtain ⟨-, hfirst, hsecond⟩ := hv
      obtain ⟨-, hfirst', hsecond'⟩ := hw
      rw [toList_render_tuple, toList_render_tuple] at h
      simp only [List.cons_append, List.append_assoc] at h
      -- Behind a component there is a comma or a parenthesis.
      have hcomponents := (List.cons.inj h).2
      obtain ⟨halike, hcomma⟩ :=
        ih₁ hfirst hfirst' (.cons (by decide)) (.cons (by decide)) hcomponents
      have hcomponent := (List.cons.inj (List.cons.inj hcomma).2).2
      obtain ⟨halike', hclose⟩ :=
        ih₂ hsecond hsecond' (.cons (by decide)) (.cons (by decide)) hcomponent
      exact ⟨.tuple halike halike', (List.cons.inj hclose).2⟩
    | _ => cases type_eq_of_render hv hw h
  | closure f =>
    cases w with
    | closure g => exact ⟨.closure trivial, List.append_cancel_left h⟩
    | _ => cases type_eq_of_render hv hw h

theorem render_eq_iff (hv : v.Lacks .str) (hw : w.Lacks .str) :
    v.render = w.render ↔ v.SameShape w := by
  constructor
  · intro h
    have hlist : v.render.toList ++ [] = w.render.toList ++ [] := by rw [h]
    exact (sameShape_of_render hv hw .nil .nil hlist).1
  · intro h
    exact h.render_eq.symm

theorem Plain.eq_of_render (hv : v.Plain) (hw : w.Plain) (h : v.render = w.render) : v = w := by
  have hshape := (render_eq_iff hv.noText hw.noText).mp h
  exact hshape.eq_of_lacks hv.noFunction

/-- The sum with the empty text on this side is this text. -/
def Joins (side : Side) (v : Value) (text : String) : Prop :=
  match side with
  | .first => Op.applyNamed "Add" (.str "") v = .ok (.str text)
  | .second => Op.applyNamed "Add" v (.str "") = .ok (.str text)

theorem joins_iff {side : Side} {text : String} : v.Joins side text ↔ v.render = text := by
  cases side with
  | first =>
    have hsum : Op.applyNamed "Add" (.str "") v = .ok (.str ("" ++ v.render)) :=
      Op.Yields.applyNamed_eq (.text (.inl rfl))
    rw [Joins, hsum, String.empty_append, Except.ok.injEq, Value.str.injEq]
  | second =>
    have hsum : Op.applyNamed "Add" v (.str "") = .ok (.str (v.render ++ "")) :=
      Op.Yields.applyNamed_eq (.text (.inr rfl))
    rw [Joins, hsum, String.append_empty, Except.ok.injEq, Value.str.injEq]

end

end Value

/-! ## Lines -/

section

variable {s t : State} {v : Value}

theorem Eval.sink_of_write {text : String}
    (h : (Eval.write text : Eval Unit) s = some (.ok (), t)) :
    t.sink = s.sink.append text.toByteArray := by
  rcases Eval.write_cases text s with ⟨sink, hsink, hwrite⟩ | ⟨fault, sink, -, hwrite⟩
  · cases h.symm.trans hwrite
    exact Sink.eq_append_of_write hsink
  · cases h.symm.trans hwrite

/-- What is written without a fault is the whole text, on any sink. -/
theorem Eval.sink_of_writeValue (h : (Eval.writeValue v : Eval Unit) s = some (.ok (), t)) :
    t.sink = s.sink.append v.render.toByteArray := by
  induction v generalizing s t with
  | tuple first second ih₁ ih₂ =>
    rw [Eval.writeValue] at h
    obtain ⟨⟨⟩, s₁, hopen, h⟩ := bind_eq_ok h
    obtain ⟨⟨⟩, s₂, hfirst, h⟩ := bind_eq_ok h
    obtain ⟨⟨⟩, s₃, hcomma, h⟩ := bind_eq_ok h
    obtain ⟨⟨⟩, s₄, hsecond, hclose⟩ := bind_eq_ok h
    rw [Eval.sink_of_write hclose, ih₂ hsecond, Eval.sink_of_write hcomma, ih₁ hfirst,
      Eval.sink_of_write hopen]
    simp only [Sink.append, Value.render, String.toByteArray_append, ByteArray.append_assoc]
  | _ => exact Eval.sink_of_write h

theorem Eval.sink_of_print (h : (Eval.print v : Eval Unit) s = some (.ok (), t)) :
    t.sink = s.sink.append v.line := by
  obtain ⟨⟨⟩, u, hvalue, hnewline⟩ := bind_eq_ok h
  rw [Eval.sink_of_write hnewline, Eval.sink_of_writeValue hvalue]
  simp only [Sink.append, Value.line, String.toUTF8_eq_toByteArray, String.toByteArray_append,
    ByteArray.append_assoc]

end

theorem Value.render_eq_of_line {v w : Value} (h : v.line = w.line) : v.render = w.render := by
  have htext : v.render ++ "\n" = w.render ++ "\n" := String.toByteArray_inj.mp h
  exact (String.append_left_inj "\n").mp htext

namespace Evaluator

/-- Printing the expression shows this line: it ends with the value that the expression has, and the
line is behind all that is written before. -/
def ShowsLine (ev : Evaluator) (env : Env) (e : Expr) (v : Value) (line : ByteArray) : Prop :=
  ∃ earlier done, ev.evaluate? e env = some earlier ∧ earlier.result = .ok v ∧
    ev.evaluate? (.print e) env = some done ∧ done.result = .ok v ∧
    done.evaluator.sink = earlier.evaluator.sink.append line

/-- The evaluator that has noted the beginning of an evaluation. -/
def noting (ev : Evaluator) (e : Expr) : Evaluator :=
  { ev with log := ev.log.add (.eval e.kind ev.depth) }

variable {ev : Evaluator} {env : Env} {e : Expr} {v : Value} {done : Evaluation} {line : ByteArray}

theorem showsLine_of_print (hdone : ev.evaluate? (.print e) env = some done)
    (hok : done.result = .ok v) : ev.ShowsLine env e v v.line := by
  obtain ⟨⟨result, t⟩, heval, hafter⟩ := Evaluator.evaluate?_eq_some.mp hdone
  have hresult : result = .ok v := (congrArg Evaluation.result hafter).trans hok
  subst hresult
  rw [Expr.evaluate?_apply] at heval
  obtain ⟨w, u, hinner, hprint⟩ := bind_eq_ok heval
  obtain ⟨⟨⟩, u', hline, hpure⟩ := bind_eq_ok hprint
  cases hpure
  -- That printing begins is noted before the value is there, which makes no difference to it.
  have hnoting : (ev.noting (.print e)).evaluate? e env =
      some ((ev.noting (.print e)).after (.ok v, u)) :=
    Evaluator.evaluate?_eq_some.mpr ⟨_, hinner, rfl⟩
  have halike := (ev.noting (.print e)).alike_of_log ev rfl rfl rfl e env
  obtain ⟨earlier, hearlier, hsame⟩ := Correspondence.exists_of_some_rel halike hnoting
  refine ⟨earlier, done, hearlier, hsame.result, hdone, hok, ?_⟩
  rw [← hafter, hsame.sink]
  exact Eval.sink_of_print hline

/-- A sink without a capacity takes the line of every value that is printed. -/
theorem showsLine_of_capacity (hcapacity : ev.sink.capacity = none)
    (hdone : ev.evaluate? e env = some done) (hok : done.result = .ok v) :
    ev.ShowsLine env e v v.line := by
  have halike := ev.alike_of_log (ev.noting (.print e)) rfl rfl rfl e env
  obtain ⟨inner, hinner, hsame⟩ := Correspondence.exists_of_some_rel halike hdone
  obtain ⟨⟨result, t⟩, heval, hafter⟩ := Evaluator.evaluate?_eq_some.mp hinner
  have hresult : result = .ok v :=
    (congrArg Evaluation.result hafter).trans (hsame.result.trans hok)
  subst hresult
  obtain ⟨out, -, hprinted⟩ := Sound.evaluate? ev.limit e _ _ heval hcapacity
  have hline := Eval.print_apply v (hprinted.capacity hcapacity)
  have hprint : (Expr.print e).evaluate? ev.limit (ev.before env) =
      some (.ok v, t.appended v.line) := by
    rw [Expr.evaluate?_apply]
    exact (bind_of_ok heval).trans (bind_of_ok hline)
  exact showsLine_of_print (Evaluator.evaluate?_eq_some.mpr ⟨_, hprint, rfl⟩) rfl

theorem ShowsLine.line_eq (h : ev.ShowsLine env e v line) : line = v.line := by
  obtain ⟨earlier, done, hearlier, -, hdone, hok, hsink⟩ := h
  obtain ⟨earlier', done', hearlier', -, hdone', -, hsink'⟩ := showsLine_of_print hdone hok
  cases hearlier.symm.trans hearlier'
  cases hdone.symm.trans hdone'
  have hwritten := congrArg Sink.written (hsink.symm.trans hsink')
  exact (ByteArray.append_right_inj _).mp hwritten

end Evaluator

/-- The rendering of values without texts is unambiguous: two of them have the same text exactly if
they have the same shape, that is, they are equal but for functions, and have these in the same
places. So different values without texts and functions have different texts, `Print` shows
different lines for them, and their sums with the empty text differ. Any value has such sums, on
either side, and its line is shown wherever `Print` succeeds, thus on each sink without a
capacity. -/
theorem Value.render_unambiguous :
    (∀ v w : Value, v.Lacks .str → w.Lacks .str → (v.render = w.render ↔ v.SameShape w)) ∧
    (∀ v w : Value, v.Plain → w.Plain → v ≠ w → v.render ≠ w.render ∧
      (∀ (ev ev' : Evaluator) (env env' : Env) (e e' : Expr) (line line' : ByteArray),
        ev.ShowsLine env e v line → ev'.ShowsLine env' e' w line' → line ≠ line') ∧
      ∀ side side' text text', v.Joins side text → w.Joins side' text' → text ≠ text') ∧
    ∀ v : Value, (∀ side, v.Joins side v.render) ∧
      ∀ (ev : Evaluator) (env : Env) (e : Expr),
        (∀ done, ev.evaluate? (.print e) env = some done → done.result = .ok v →
          ev.ShowsLine env e v v.line) ∧
        (∀ done, ev.evaluate? e env = some done → done.result = .ok v → ev.sink.capacity = none →
          ev.ShowsLine env e v v.line) := by
  refine ⟨fun v w => Value.render_eq_iff, fun v w hv hw hne => ⟨?_, ?_, ?_⟩, fun v => ⟨?_, ?_⟩⟩
  · exact fun h => hne (hv.eq_of_render hw h)
  · rintro ev ev' env env' e e' line line' hline hline' rfl
    have hlines : v.line = w.line := hline.line_eq.symm.trans hline'.line_eq
    exact hne (hv.eq_of_render hw (Value.render_eq_of_line hlines))
  · rintro side side' text text' htext htext' rfl
    have hrender : v.render = w.render :=
      (Value.joins_iff.mp htext).trans (Value.joins_iff.mp htext').symm
    exact hne (hv.eq_of_render hw hrender)
  · exact fun side => Value.joins_iff.mpr rfl
  · intro ev env e
    refine ⟨fun done hdone hok => ?_, fun done hdone hok hcapacity => ?_⟩
    · exact Evaluator.showsLine_of_print hdone hok
    · exact Evaluator.showsLine_of_capacity hcapacity hdone hok

/-- Two pairs that differ in their parentheses only, and two that differ in a function. -/
theorem Value.render_unambiguous_nested :
    let v : Value := .tuple (.tuple (.int (-1)) (.int 2)) (.bool true)
    let w : Value := .tuple (.int (-1)) (.tuple (.int 2) (.bool true))
    let f : Value := .tuple v (.closure ⟨["x"], .var "x"⟩)
    let g : Value := .tuple v (.closure ⟨[], .str "x"⟩)
    let ev := Evaluator.new (some 0) Sink.unlimited Log.off
    f.render = g.render ∧
    v.render = "((-1, 2), true)" ∧ w.render = "(-1, (2, true))" ∧ v.render ≠ w.render ∧
    ev.ShowsLine Env.empty v.quote v v.line ∧ ev.ShowsLine Env.empty w.quote w w.line ∧
    v.line ≠ w.line ∧
    v.Joins .first "((-1, 2), true)" ∧ w.Joins .second "(-1, (2, true))" ∧
    "((-1, 2), true)" ≠ "(-1, (2, true))" := by
  intro v w f g ev
  obtain ⟨hshape, hdifferent, hshows⟩ := Value.render_unambiguous
  have hfg : f.SameShape g :=
    .tuple (.tuple (.tuple (.int _) (.int _)) (.bool _)) (.closure trivial)
  have hv : v.render = "((-1, 2), true)" := by decide
  have hw : w.render = "(-1, (2, true))" := by decide
  have htext : v.Joins .first "((-1, 2), true)" := hv ▸ (hshows v).1 .first
  have htext' : w.Joins .second "(-1, (2, true))" := hw ▸ (hshows w).1 .second
  obtain ⟨log, hdone⟩ := v.quote_gives ev Env.empty
  obtain ⟨log', hdone'⟩ := w.quote_gives ev Env.empty
  have hline' := ((hshows w).2 ev Env.empty w.quote).2 _ hdone' rfl rfl
  obtain ⟨-, printed, -, -, hprinted, hok, -⟩ :=
    ((hshows v).2 ev Env.empty v.quote).2 _ hdone rfl rfl
  have hline := ((hshows v).2 ev Env.empty v.quote).1 printed hprinted hok
  obtain ⟨hrender, hlines, htexts⟩ :=
    hdifferent v w ⟨by decide, by decide⟩ ⟨by decide, by decide⟩ (by decide)
  exact ⟨(hshape f g (by decide) (by decide)).mpr hfg, hv, hw, hrender, hline, hline',
    hlines ev ev Env.empty Env.empty v.quote w.quote _ _ hline hline', htext, htext',
    htexts .first .second _ _ htext htext'⟩

end TreeLang
