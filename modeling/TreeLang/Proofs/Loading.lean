import Mathlib.Data.List.TakeWhile
import TreeLang.Source.Load

/-!
# Loading trees by their paths

Whether a path names a tree is read off its text. Behind the last component that counts there may be
slashes, and single dots behind slashes; that component has to be something followed by `.json`.
`Path.NamesTree` says this of the text as a whole. The gate of `Tree.load` splits the text into
components and compares an extension, which comes to the same (`Path.isTree_iff`).

All about splitting follows from one equation: a text is split at a separator into the parts in
front of it and those behind it (`List.splitOn_append_cons_self`).
-/

namespace TreeLang

/-! ## Parts of a text -/

namespace Text

variable {c : Char} {text part : List Char}

theorem notMem_of_mem_splitOn (h : part ∈ text.splitOn c) : c ∉ part := by
  induction text generalizing part with
  | nil =>
    cases List.mem_singleton.mp h
    exact List.not_mem_nil
  | cons a rest ih =>
    rw [List.splitOn_cons_eq_if_modifyHead] at h
    split at h
    · rcases List.mem_cons.mp h with rfl | h
      · exact List.not_mem_nil
      · exact ih h
    · rename_i ha
      obtain ⟨first, parts, hrest⟩ := List.exists_cons_of_ne_nil (List.splitOn_ne_nil c rest)
      rw [hrest, List.modifyHead_cons] at h
      rw [hrest] at ih
      rcases List.mem_cons.mp h with rfl | h
      · exact List.not_mem_cons_of_ne_of_not_mem (Ne.symm (by simpa using ha))
          (ih List.mem_cons_self)
      · exact ih (List.mem_cons_of_mem _ h)

/-- Joined parts: a separator stands behind each part that comes before one of them, and in front of
each that comes after it. -/
theorem intercalate_append_cons (c : Char) (front : List (List Char)) (part : List Char)
    (back : List (List Char)) :
    [c].intercalate (front ++ part :: back) =
      front.flatMap (· ++ [c]) ++ (part ++ back.flatMap (c :: ·)) := by
  induction front with
  | nil =>
    induction back generalizing part with
    | nil => simp
    | cons next back ih =>
      have ih : [c].intercalate (next :: back) = next ++ back.flatMap (c :: ·) := ih next
      simp [List.intercalate_cons_cons, ih]
  | cons first front ih => simp [List.intercalate_cons_of_ne_nil, ih]

theorem eq_of_splitOn {front back : List (List Char)} (h : text.splitOn c = front ++ part :: back) :
    text = front.flatMap (· ++ [c]) ++ (part ++ back.flatMap (c :: ·)) := by
  rw [← intercalate_append_cons, ← h, List.intercalate_splitOn]

end Text

/-! ## The last component -/

namespace Path

/-- What does not count at the end of a path: slashes, and single dots behind slashes. -/
inductive Trailing : List Char → Prop where
  | nil : Trailing []
  | slash {rest : List Char} (h : Trailing rest) : Trailing ('/' :: rest)
  | dot {rest : List Char} (h : Trailing rest) : Trailing ('/' :: '.' :: rest)

/-- Apart from what does not count, the path ends in this component. -/
def EndsIn (path : String) (name : List Char) : Prop :=
  ∃ directory trailing, path.toList = directory ++ (name ++ trailing) ∧
    (directory = [] ∨ ∃ parent, directory = parent ++ ['/']) ∧ '/' ∉ name ∧ Trailing trailing

/-- Apart from what does not count, the path ends in a component that is something followed by
`.json`. -/
def NamesTree (path : String) : Prop :=
  ∃ stem : List Char, stem ≠ [] ∧ EndsIn path (stem ++ ".json".toList)

/-- A component that does not count. -/
def Blank (part : List Char) : Prop := part = [] ∨ part = ['.']

instance : DecidablePred Blank := fun _ => inferInstanceAs (Decidable (_ ∨ _))

theorem not_blank_of_length {part : List Char} (h : 2 ≤ part.length) : ¬ Blank part := by
  rintro (rfl | rfl) <;> simp at h

theorem trailing_flatMap {parts : List (List Char)} (h : ∀ part ∈ parts, Blank part) :
    Trailing (parts.flatMap ('/' :: ·)) := by
  induction parts with
  | nil => exact .nil
  | cons part parts ih =>
    obtain ⟨hpart, hparts⟩ := List.forall_mem_cons.mp h
    rcases hpart with rfl | rfl
    · exact .slash (ih hparts)
    · exact .dot (ih hparts)

/-- What trails behind a component adds components that do not count. -/
theorem Trailing.split_append {trailing name : List Char} (h : Trailing trailing)
    (hname : '/' ∉ name) :
    ∃ parts, (name ++ trailing).splitOn '/' = name :: parts ∧ ∀ part ∈ parts, Blank part := by
  induction h generalizing name with
  | nil =>
    rw [List.append_nil, List.splitOn_eq_singleton hname]
    exact ⟨[], rfl, nofun⟩
  | slash _ ih =>
    obtain ⟨parts, hparts, hblank⟩ := ih (List.not_mem_nil)
    refine ⟨[] :: parts, ?_, List.forall_mem_cons.mpr ⟨.inl rfl, hblank⟩⟩
    rw [List.splitOn_append_cons_self, List.splitOn_eq_singleton hname, ← hparts]
    rfl
  | dot _ ih =>
    have hdot : '/' ∉ ['.'] := by decide
    obtain ⟨parts, hparts, hblank⟩ := ih hdot
    refine ⟨['.'] :: parts, ?_, List.forall_mem_cons.mpr ⟨.inr rfl, hblank⟩⟩
    rw [List.splitOn_append_cons_self, List.splitOn_eq_singleton hname, ← hparts]
    rfl

variable {path : String} {name : List Char}

theorem exists_parent (front : List (List Char)) :
    front.flatMap (· ++ ['/']) = [] ∨ ∃ parent, front.flatMap (· ++ ['/']) = parent ++ ['/'] := by
  rcases List.eq_nil_or_concat front with rfl | ⟨front, last, rfl⟩
  · exact .inl rfl
  · exact .inr ⟨front.flatMap (· ++ ['/']) ++ last, by simp⟩

/-- A path ends in a component exactly if only components that do not count come after it. -/
theorem endsIn_iff : EndsIn path name ↔
    ∃ front back, path.toList.splitOn '/' = front ++ name :: back ∧ ∀ part ∈ back, Blank part := by
  constructor
  · rintro ⟨directory, trailing, hpath, hdirectory, hname, htrailing⟩
    obtain ⟨back, hback, hblank⟩ := htrailing.split_append hname
    rw [hpath]
    rcases hdirectory with rfl | ⟨parent, rfl⟩
    · exact ⟨[], back, hback, hblank⟩
    · refine ⟨parent.splitOn '/', back, ?_, hblank⟩
      rw [List.append_assoc, List.singleton_append, List.splitOn_append_cons_self, hback]
  · rintro ⟨front, back, hsplit, hblank⟩
    have hname : name ∈ path.toList.splitOn '/' := by
      rw [hsplit]
      exact List.mem_append_right _ List.mem_cons_self
    exact ⟨_, _, Text.eq_of_splitOn hsplit, exists_parent front, Text.notMem_of_mem_splitOn hname,
      trailing_flatMap hblank⟩

theorem lastComponent?_eq (path : String) : lastComponent? path =
    ((path.toList.splitOn '/').filter (¬ Blank ·)).getLast?.map String.ofList := by
  have hcounts : ∀ part, (String.ofList part ≠ "" && String.ofList part ≠ ".") =
      decide (¬ Blank part) := by
    intro part
    simp [Blank, ← String.toList_inj]
  rw [lastComponent?, parts, List.filter_map, List.getLast?_map]
  congr
  funext part
  exact hcounts part

/-- The last component is the one in which the path ends, if that counts. -/
theorem lastComponent?_eq_some :
    lastComponent? path = some (String.ofList name) ↔ ¬ Blank name ∧ EndsIn path name := by
  rw [lastComponent?_eq, endsIn_iff]
  constructor
  · intro h
    obtain ⟨last, hlast, heq⟩ := Option.map_eq_some_iff.mp h
    obtain rfl : last = name := String.ofList_injective heq
    -- The last part that counts stands in front of nothing but parts that do not.
    obtain ⟨counted, hcounted⟩ := List.getLast?_eq_some_iff.mp hlast
    obtain ⟨front, rest, hsplit, -, hrest⟩ := List.filter_eq_append_iff.mp hcounted
    obtain ⟨middle, back, rfl, -, hname, hback⟩ := List.filter_eq_cons_iff.mp hrest
    refine ⟨by simpa using hname, front ++ middle, back, ?_, by simpa using hback⟩
    rw [hsplit, List.append_assoc]
  · rintro ⟨hname, front, back, hsplit, hblank⟩
    have hback : back.filter (¬ Blank ·) = [] := by simpa using hblank
    rw [hsplit, List.filter_append, List.filter_cons_of_pos (by simpa using hname), hback]
    simp

/-! ## The extension -/

/-- The extension is what stands behind the last dot, if something stands in front of that. -/
theorem extensionOf?_eq_some {extension : List Char} :
    extensionOf? (String.ofList name) = some (String.ofList extension) ↔
      '.' ∉ extension ∧ ∃ stem, stem ≠ [] ∧ name = stem ++ '.' :: extension := by
  rw [extensionOf?, String.toList_ofList]
  constructor
  · intro h
    split at h
    · rename_i dot last stem hrest
      have hextension : (name.reverse.takeWhile (· ≠ '.')).reverse = extension :=
        String.ofList_injective (Option.some.inj h)
      have hdot : dot = '.' := by
        have hhead := List.head?_dropWhile_not (· ≠ '.') name.reverse
        rw [hrest] at hhead
        simpa using hhead
      have hname := List.takeWhile_append_dropWhile (p := (· ≠ '.')) (l := name.reverse)
      rw [hrest, hdot] at hname
      refine ⟨?_, (last :: stem).reverse, by simp, ?_⟩
      · rw [← hextension, List.mem_reverse]
        intro hmem
        simpa using List.mem_takeWhile_imp hmem
      · rw [← List.reverse_reverse name, ← hname, List.reverse_append, hextension]
        simp
    · cases h
  · rintro ⟨hextension, stem, hstem, rfl⟩
    have hnot : ∀ c ∈ extension.reverse, decide (c ≠ '.') = true := by
      intro c hc
      exact decide_eq_true (ne_of_mem_of_not_mem (List.mem_reverse.mp hc) hextension)
    obtain ⟨last, rest, hrest⟩ := List.exists_cons_of_ne_nil (List.reverse_ne_nil_iff.mpr hstem)
    have hreverse : (stem ++ '.' :: extension).reverse =
        extension.reverse ++ '.' :: last :: rest := by
      simp [hrest]
    rw [hreverse, List.dropWhile_append_of_pos hnot, List.takeWhile_append_of_pos hnot]
    simp

/-- The gate lets a path through exactly if it names a tree. -/
theorem isTree_iff : isTree path = true ↔ NamesTree path := by
  have hjson : ∀ name, extensionOf? (String.ofList name) = some "json" ↔
      ∃ stem, stem ≠ [] ∧ name = stem ++ ".json".toList := fun name =>
    (@extensionOf?_eq_some name "json".toList).trans (and_iff_right (by decide))
  rw [isTree, decide_eq_true_iff, extension?, Option.bind_eq_some_iff]
  constructor
  · rintro ⟨name, hname, hextension⟩
    obtain ⟨hlast, -⟩ := Option.filter_eq_some_iff.mp hname
    rw [← String.ofList_toList (s := name)] at hlast hextension
    obtain ⟨stem, hstem, heq⟩ := (hjson _).mp hextension
    exact ⟨stem, hstem, heq ▸ (lastComponent?_eq_some.mp hlast).2⟩
  · rintro ⟨stem, hstem, hends⟩
    have hcounts : ¬ Blank (stem ++ ".json".toList) := not_blank_of_length (by simp)
    have hout : String.ofList (stem ++ ".json".toList) ≠ ".." := by
      intro heq
      have hlength := congrArg (·.toList.length) heq
      simp at hlength
    refine ⟨String.ofList (stem ++ ".json".toList), ?_, (hjson _).mpr ⟨stem, hstem, rfl⟩⟩
    exact Option.filter_eq_some_iff.mpr
      ⟨lastComponent?_eq_some.mpr ⟨hcounts, hends⟩, decide_eq_true hout⟩

/-- A path that ends in two dots names no tree, whatever trails. -/
theorem not_namesTree_of_dots {front trailing : List Char} (h : Trailing trailing) :
    ¬ NamesTree (String.ofList (front ++ ("..".toList ++ trailing))) := by
  rintro ⟨stem, -, hends⟩
  -- The two dots are the end of a component, which begins behind the last slash in front of them.
  obtain ⟨components, base, hsplit⟩ : ∃ components base,
      front.splitOn '/' = components ++ base :: [] := by
    rcases List.eq_nil_or_concat (front.splitOn '/') with hnil | ⟨components, base, heq⟩
    · exact absurd hnil (List.splitOn_ne_nil _ _)
    · exact ⟨components, base, heq.trans List.concat_eq_append⟩
  have hfront := Text.eq_of_splitOn hsplit
  have hmem : base ∈ front.splitOn '/' := by
    rw [hsplit]
    exact List.mem_append_right _ List.mem_cons_self
  have hbase : '/' ∉ base := Text.notMem_of_mem_splitOn hmem
  have hdots : EndsIn (String.ofList (front ++ ("..".toList ++ trailing)))
      (base ++ "..".toList) := by
    refine ⟨_, trailing, ?_, exists_parent components, ?_, h⟩
    · rw [String.toList_ofList, hfront]
      simp
    · simpa using hbase
  have hlast := lastComponent?_eq_some.mpr ⟨not_blank_of_length (by simp), hdots⟩
  have hlast' := lastComponent?_eq_some.mpr ⟨not_blank_of_length (by simp), hends⟩
  have heq := String.ofList_injective (Option.some.inj (hlast.symm.trans hlast'))
  have hend := congrArg List.getLast? heq
  simp at hend

end Path

/-! ## The stages of loading -/

theorem fromUTF8?_eq_some {content : ByteArray} {text : String} :
    String.fromUTF8? content = some text ↔ content = text.toUTF8 := by
  unfold String.fromUTF8?
  constructor
  · intro h
    split at h
    · cases h
      rfl
    · cases h
  · rintro rfl
    exact dif_pos text.isValidUTF8

theorem FileSystem.readText_eq_ok {files : FileSystem} {path text : String} :
    files.readText path = .ok text ↔ files path = .ok text.toUTF8 := by
  unfold FileSystem.readText
  rcases files path with fault | content
  · simp
  · rw [Except.ok.injEq, ← fromUTF8?_eq_some]
    rcases htext : String.fromUTF8? content with _ | text' <;> simp [htext]

/-- The ways in which loading can end. The path alone decides on the first of them, before the file
is read. -/
theorem Tree.load_cases (files : FileSystem) (path : String) :
    (¬ Path.NamesTree path ∧ Tree.load files path = .error (.unsupportedFile path)) ∨
    (Path.NamesTree path ∧ ∃ fault, files.readText path = .error fault ∧
      Tree.load files path = .error (.unreadable path fault)) ∨
    (Path.NamesTree path ∧ ∃ text cause, files.readText path = .ok text ∧
      Tree.ofText text = .error cause ∧ Tree.load files path = .error (.invalidText cause)) ∨
    Path.NamesTree path ∧ ∃ text tree, files.readText path = .ok text ∧
      Tree.ofText text = .ok tree ∧ Tree.load files path = .ok tree := by
  by_cases hpath : Path.NamesTree path
  · have hgate : Path.isTree path = true := Path.isTree_iff.mpr hpath
    cases htext : files.readText path with
    | error fault =>
      refine .inr (.inl ⟨hpath, fault, rfl, ?_⟩)
      rw [Tree.load, if_pos hgate, htext]
    | ok text =>
      have hload : Tree.load files path = (Tree.ofText text).mapError .invalidText := by
        rw [Tree.load, if_pos hgate, htext]
      cases htree : Tree.ofText text with
      | error cause =>
        rw [htree] at hload
        exact .inr (.inr (.inl ⟨hpath, text, cause, rfl, htree, hload⟩))
      | ok tree =>
        rw [htree] at hload
        exact .inr (.inr (.inr ⟨hpath, text, tree, rfl, htree, hload⟩))
  · exact .inl ⟨hpath, if_neg (mt Path.isTree_iff.mp hpath)⟩

/-- A tree is loaded in three stages. The text of the path alone decides whether the file is looked
at: behind all that does not count, the path has to end in something followed by `.json`. Then the
file has to be readable as text, and then the text has to be that of a tree. -/
theorem Tree.load_stages (files : FileSystem) (path : String) :
    (∀ path ∈ ["..json", "a.b.json"], Path.NamesTree path) ∧
    (∀ path ∈ [".json", "x.json.txt", "a.JSON", "", "/"], ¬ Path.NamesTree path) ∧
    (∀ front trailing, Path.Trailing trailing →
      ¬ Path.NamesTree (String.ofList (front ++ ("..".toList ++ trailing)))) ∧
    (Tree.load files path = .error (.unsupportedFile path) ↔ ¬ Path.NamesTree path) ∧
    ((∃ fault, Tree.load files path = .error (.unreadable path fault)) ↔
      Path.NamesTree path ∧ ¬ ∃ text : String, files path = .ok text.toUTF8) ∧
    (∀ cause, Tree.load files path = .error (.invalidText cause) ↔
      Path.NamesTree path ∧ ∃ text : String, files path = .ok text.toUTF8 ∧
        Tree.ofText text = .error cause) ∧
    ∀ tree, Tree.load files path = .ok tree ↔
      Path.NamesTree path ∧ ∃ text : String, files path = .ok text.toUTF8 ∧
        Tree.ofText text = .ok tree := by
  refine ⟨?_, ?_, fun _ _ => Path.not_namesTree_of_dots, ?_⟩
  · simp only [← Path.isTree_iff]
    decide
  · simp only [← Path.isTree_iff]
    decide
  · simp only [← FileSystem.readText_eq_ok]
    rcases Tree.load_cases files path with ⟨hpath, hload⟩ | ⟨hpath, _, htext, hload⟩ |
      ⟨hpath, _, _, htext, htree, hload⟩ | ⟨hpath, _, _, htext, htree, hload⟩
    · simp [hpath, hload]
    · simp [hpath, htext, hload]
    · simp [hpath, htext, htree, hload]
    · simp [hpath, htext, htree, hload]

/-- Slashes and single dots at the end of the path do not count: the file is read, and its text is
refused. Two dots count, and then the file is not read. -/
theorem Tree.load_stages_trailing :
    let files : FileSystem := fun _ => .ok "[1".toUTF8
    Tree.load files "b/..json/./" = .error (.invalidText ⟨.endInArray, 1, 2⟩) ∧
    ¬ Path.NamesTree (String.ofList ("a.json/".toList ++ ("..".toList ++ "/".toList))) ∧
    Tree.load files "a.json/../" = .error (.unsupportedFile "a.json/../") := by
  intro files
  have htrailing : Path.Trailing "/".toList := .slash .nil
  have hends : Path.EndsIn "b/..json/./" (".".toList ++ ".json".toList) :=
    ⟨"b/".toList, "/./".toList, rfl, .inr ⟨"b".toList, rfl⟩, by decide, .dot (.slash .nil)⟩
  have hnames : Path.NamesTree "b/..json/./" := ⟨".".toList, by decide, hends⟩
  have htext : Tree.ofText "[1" = .error ⟨.endInArray, 1, 2⟩ := by with_unfolding_all rfl
  obtain ⟨-, -, -, -, -, hinvalid, -⟩ := Tree.load_stages files "b/..json/./"
  obtain ⟨-, -, hdots, hunsupported, -⟩ := Tree.load_stages files "a.json/../"
  have hnot := hdots "a.json/".toList "/".toList htrailing
  exact ⟨(hinvalid _).mpr ⟨hnames, "[1", rfl, htext⟩, hnot, hunsupported.mpr hnot⟩

end TreeLang
