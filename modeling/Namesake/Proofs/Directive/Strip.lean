import Mathlib.Control.Monad.Basic
import Namesake.Expand
import Namesake.Proofs.Directive.Search

/-
  What is left when a directive is stripped.  The lines of a
  directive are looked up by their text, so the first equal
  run is removed, wherever it stands.

  Main declarations:
    * `Directive.runIndex?_append`
    * `Directive.runIndex?_of_infix`
    * `Directive.strip_of_runIndex?`
    * `Directive.strip_of_occupies`
    * `Directive.clean_keeps_floating_iff`
-/

namespace Namesake

namespace Directive

------------------------------------------------------------
-- The First Equal Run
------------------------------------------------------------

/- A run is found where it stands. -/
theorem runIndex?_self_append
    {run : List Bytes}
    (rest : List Bytes)
    (hRun : run ≠ []) :
    runIndex? run (run ++ rest) = some 0 := by
  cases run with
  | nil => exact absurd rfl hRun
  | cons line lines =>
      have hStarts :
          (line :: lines).isPrefixOf (line :: lines ++ rest) =
            true :=
        List.isPrefixOf_iff_prefix.mpr
          (List.prefix_append (line :: lines) rest)
      simp only [List.cons_append] at hStarts ⊢
      simp only [runIndex?, hStarts, if_true]

/-
  Lines in front of a run count, as long as no equal run
  starts among them.
-/
theorem runIndex?_append
    {run : List Bytes}
    (front rest : List Bytes)
    (hNone :
      ∀ left right,
        front = left ++ right → right ≠ [] →
          ¬ run <+: right ++ rest) :
    runIndex? run (front ++ rest) =
      (runIndex? run rest).map (· + front.length) := by
  induction front with
  | nil => simp
  | cons line front ih =>
      have hHere : ¬ run <+: line :: front ++ rest :=
        hNone [] (line :: front) rfl (by simp)
      have hStarts :
          run.isPrefixOf (line :: (front ++ rest)) = false := by
        rw [← Bool.not_eq_true]
        exact fun h => hHere (List.isPrefixOf_iff_prefix.mp h)
      have hLater := ih fun left right hEq hRight =>
        hNone (line :: left) right (by rw [hEq]; rfl) hRight
      simp only [List.cons_append, runIndex?, hStarts,
        Bool.false_eq_true, if_false, hLater, Option.map_map]
      cases runIndex? run rest with
      | none => rfl
      | some i =>
          simp only [Option.map_some, Function.comp_apply,
            List.length_cons, Nat.add_assoc]

/- An equal run in the front part is found there. -/
theorem runIndex?_of_infix
    {run front : List Bytes}
    (rest : List Bytes)
    (hRun : run ≠ [])
    (hInfix : run <:+: front) :
    ∃ i,
      runIndex? run (front ++ rest) = some i ∧
        i + run.length ≤ front.length := by
  induction front with
  | nil => exact absurd (List.infix_nil.mp hInfix) hRun
  | cons line front ih =>
      by_cases hStarts :
          run.isPrefixOf (line :: (front ++ rest)) = true
      · refine ⟨0, ?_, ?_⟩
        · simp only [List.cons_append, runIndex?, hStarts,
            if_true]
        · rw [Nat.zero_add]
          exact hInfix.length_le
      · rcases List.infix_cons_iff.mp hInfix with
          hHere | hLater
        · refine absurd ?_ hStarts
          apply List.isPrefixOf_iff_prefix.mpr
          exact hHere.trans
            (List.prefix_append (line :: front) rest)
        · rcases ih hLater with ⟨i, hIndex, hBound⟩
          refine ⟨i + 1, ?_, ?_⟩
          · simp only [List.cons_append, runIndex?, hStarts,
              Bool.false_eq_true, if_false, hIndex,
              Option.map_some]
          · simp only [List.length_cons]
            omega

------------------------------------------------------------
-- The Neighbourhood of a Stripped Directive
------------------------------------------------------------

/- Of what follows, at most the first line is dropped. -/
theorem exists_rejoin_eq
    (before after : List Bytes) :
    ∃ kept,
      (kept = after ∨ kept = after.tail) ∧
        rejoin before after = before ++ kept := by
  unfold rejoin
  split
  · split
    · exact ⟨_, Or.inr rfl, rfl⟩
    · exact ⟨_, Or.inl rfl, rfl⟩
  · exact ⟨_, Or.inl rfl, rfl⟩

theorem dropDangling_isPrefix
    (lines : List Bytes) :
    dropDangling lines <+: lines := by
  rw [← List.reverse_suffix]
  unfold dropDangling
  rw [List.reverse_reverse]
  exact List.dropWhile_suffix _

/- Lines up to one that is no empty comment stay. -/
theorem dropDangling_append_cons
    {line : Bytes}
    (front rest : List Bytes)
    (hLine : line ≠ slashes) :
    dropDangling (front ++ line :: rest) =
      front ++ line :: dropDangling rest := by
  have hKeep : (line == slashes) = false := by
    simpa using hLine
  unfold dropDangling
  simp only [List.reverse_append, List.reverse_cons,
    List.append_assoc, List.dropWhile_append]
  split
  · rename_i hEmpty
    have hNil := List.isEmpty_iff.mp hEmpty
    simp [hKeep, hNil]
  · simp

/- What is left when the run at an index is removed. -/
theorem strip_of_runIndex?
    {d : Directive}
    {lines : List Bytes}
    {i : Nat}
    (hComments : d.comments ≠ [])
    (hIndex : runIndex? d.comments lines = some i) :
    ∃ kept,
      (kept = lines.drop (i + d.comments.length) ∨
        kept = (lines.drop (i + d.comments.length)).tail) ∧
      d.strip lines = dropDangling (lines.take i ++ kept) := by
  have hFound : d.indexIn? lines = some i := by
    unfold indexIn?
    rw [List.isEmpty_eq_false_iff.mpr hComments, hIndex]
    rfl
  rcases exists_rejoin_eq (lines.take i)
      (lines.drop (i + d.comments.length)) with
    ⟨kept, hKept, hJoin⟩
  refine ⟨kept, hKept, ?_⟩
  unfold strip
  simp only [hFound, hJoin]

------------------------------------------------------------
-- Stripping a Found Directive
------------------------------------------------------------

/- The lines of a directive do not start among earlier ones. -/
theorem Occupies.not_prefix_before
    {name : Bytes}
    {d : Directive}
    {before run after : List DocLine}
    (hRun : Occupies name d before run after)
    {left right : List Bytes}
    (rest : List Bytes)
    (hBefore : before.map DocLine.text = left ++ right)
    (hRight : right ≠ []) :
    ¬ d.comments <+: right ++ rest := by
  intro hPrefix
  rcases hRun.first with ⟨first, others, hFirst, hStarts⟩
  cases right with
  | nil => exact hRight rfl
  | cons line right =>
      rw [hRun.comments, hFirst, List.map_cons,
        List.cons_append, List.cons_prefix_cons] at hPrefix
      have hMem : line ∈ before.map DocLine.text := by
        rw [hBefore]
        simp
      rcases List.mem_map.mp hMem with ⟨other, hOther, hText⟩
      have hNot := hRun.before other hOther
      rw [hText, ← hPrefix.1, hStarts] at hNot
      cases hNot

theorem Occupies.comments_ne_nil
    {name : Bytes}
    {d : Directive}
    {before run after : List DocLine}
    (hRun : Occupies name d before run after) :
    d.comments ≠ [] := by
  rcases hRun.first with ⟨first, others, hFirst, _⟩
  rw [hRun.comments, hFirst]
  simp

/- A directive is found in its own doc comment where it is. -/
theorem Occupies.runIndex?_eq
    {name : Bytes}
    {d : Directive}
    {before run after : List DocLine}
    (hRun : Occupies name d before run after) :
    runIndex? d.comments
        ((before ++ run ++ after).map DocLine.text) =
      some before.length := by
  rw [List.append_assoc, List.map_append,
    runIndex?_append _ _ fun left right hEq hRight =>
      hRun.not_prefix_before _ hEq hRight,
    List.map_append, ← hRun.comments,
    runIndex?_self_append _ hRun.comments_ne_nil]
  simp

/- So it is behind lines in which no equal run starts. -/
theorem Occupies.runIndex?_append_eq
    {name : Bytes}
    {d : Directive}
    {before run after : List DocLine}
    (hRun : Occupies name d before run after)
    {front : List Bytes}
    (hFront :
      ∀ left right,
        front = left ++ right → right ≠ [] →
          ¬ d.comments <+:
              right ++ (before ++ run ++ after).map DocLine.text) :
    runIndex? d.comments
        (front ++ (before ++ run ++ after).map DocLine.text) =
      some (before.length + front.length) := by
  rw [runIndex?_append _ _ hFront, hRun.runIndex?_eq]
  rfl

/-
  If no equal run starts in front of a doc comment, exactly
  the lines of its directive are taken out of it.
-/
theorem strip_of_occupies
    {name : Bytes}
    {d : Directive}
    {before run after : List DocLine}
    (hRun : Occupies name d before run after)
    (front : List Bytes)
    (hFront :
      ∀ left right,
        front = left ++ right → right ≠ [] →
          ¬ d.comments <+:
              right ++ (before ++ run ++ after).map DocLine.text) :
    ∃ kept,
      (kept = after.map DocLine.text ∨
        kept = (after.map DocLine.text).tail) ∧
      d.strip
          (front ++ (before ++ run ++ after).map DocLine.text) =
        dropDangling
          (front ++ before.map DocLine.text ++ kept) := by
  have hNil := hRun.comments_ne_nil
  have hIndex := hRun.runIndex?_append_eq hFront
  have hLines :
      front ++ (before ++ run ++ after).map DocLine.text =
        front ++ before.map DocLine.text ++ d.comments ++
          after.map DocLine.text := by
    simp [hRun.comments]
  have hTake :
      (front ++ (before ++ run ++ after).map DocLine.text).take
          (before.length + front.length) =
        front ++ before.map DocLine.text := by
    rw [hLines, List.append_assoc]
    refine List.take_left' ?_
    simp only [List.length_append, List.length_map]
    omega
  have hDrop :
      (front ++ (before ++ run ++ after).map DocLine.text).drop
          (before.length + front.length + d.comments.length) =
        after.map DocLine.text := by
    rw [hLines]
    refine List.drop_left' ?_
    simp only [List.length_append, List.length_map]
    omega
  have hStrip := strip_of_runIndex? hNil hIndex
  rw [hTake, hDrop] at hStrip
  exact hStrip

/- No line left in a doc comment starts the directive. -/
theorem Occupies.not_starts_of_mem_kept
    {name : Bytes}
    {d : Directive}
    {before run after : List DocLine}
    (hRun : Occupies name d before run after)
    {kept : List Bytes}
    (hKept :
      kept = after.map DocLine.text ∨
        kept = (after.map DocLine.text).tail)
    {text : Bytes}
    (hText : text ∈ before.map DocLine.text ++ kept) :
    starts name text = false := by
  rcases List.mem_append.mp hText with hBefore | hAfter
  · rcases List.mem_map.mp hBefore with ⟨line, hLine, rfl⟩
    exact hRun.before line hLine
  · have hMem : text ∈ after.map DocLine.text := by
      rcases hKept with rfl | rfl
      · exact hAfter
      · exact List.mem_of_mem_tail hAfter
    rcases List.mem_map.mp hMem with ⟨line, hLine, rfl⟩
    exact hRun.after line hLine

------------------------------------------------------------
-- Comments in Front of the Doc Comment
------------------------------------------------------------

/- A run without a line ends in front of that line. -/
theorem prefix_of_prefix_append_cons
    {run front rest : List Bytes}
    {line : Bytes}
    (hLine : line ∉ run)
    (hPrefix : run <+: front ++ line :: rest) :
    run <+: front := by
  have hFront : front ++ [line] <+: front ++ line :: rest :=
    ⟨rest, by simp⟩
  rcases List.prefix_or_prefix_of_prefix hPrefix hFront with
    hShort | hLong
  · rcases List.prefix_concat_iff.mp hShort with hEq | hFits
    · exact absurd (by rw [hEq]; simp) hLine
    · exact hFits
  · exact absurd (hLong.subset (by simp)) hLine

/- Nor does it start in a part that ends in that line. -/
theorem not_prefix_of_not_infix
    {run floating : List Bytes}
    {line : Bytes}
    (hLine : line ∉ run)
    (hInfix : ¬ run <:+: floating)
    (rest left right : List Bytes)
    (hEq : floating ++ [line] = left ++ right)
    (hRight : right ≠ []) :
    ¬ run <+: right ++ rest := by
  intro hPrefix
  rcases List.eq_nil_or_concat right with hNil | hLast
  · exact hRight hNil
  · rcases hLast with ⟨front, last, rfl⟩
    rw [List.concat_eq_append, ← List.append_assoc] at hEq
    rcases List.append_inj' hEq rfl with ⟨hHead, hTail⟩
    rw [List.concat_eq_append, ← hTail, List.append_assoc,
      List.singleton_append] at hPrefix
    have hFits := prefix_of_prefix_append_cons hLine hPrefix
    apply hInfix
    rw [hHead]
    exact hFits.isInfix.trans
      (List.suffix_append left front).isInfix

/-
  An equal run in front of the doc comment is removed in its
  place, so less stands in front of the doc comment.
-/
theorem exists_strip_of_infix
    {d : Directive}
    {floating : List Bytes}
    (line : Bytes)
    (doc : List Bytes)
    (hComments : d.comments ≠ [])
    (hInfix : d.comments <:+: floating) :
    ∃ left,
      left.length ≤ floating.length ∧
        d.strip (floating ++ [line] ++ doc) =
          dropDangling (left ++ doc) := by
  rcases runIndex?_of_infix ([line] ++ doc) hComments hInfix
    with ⟨i, hIndex, hBound⟩
  rw [← List.append_assoc] at hIndex
  rcases strip_of_runIndex? hComments hIndex with
    ⟨kept, hKept, hStrip⟩
  have hTake :
      (floating ++ [line] ++ doc).take i = floating.take i := by
    rw [List.append_assoc]
    exact List.take_append_of_le_length (by omega)
  have hDrop :
      (floating ++ [line] ++ doc).drop
          (i + d.comments.length) =
        floating.drop (i + d.comments.length) ++ [line] ++
          doc := by
    rw [List.append_assoc, List.append_assoc]
    exact List.drop_append_of_le_length hBound
  have hPos := List.length_pos_iff.mpr hComments
  rw [hDrop] at hKept
  rw [hTake] at hStrip
  rw [hStrip]
  rcases hKept with rfl | rfl
  · refine ⟨floating.take i ++
      (floating.drop (i + d.comments.length) ++ [line]),
      ?_, ?_⟩
    · simp only [List.length_append, List.length_take,
        List.length_drop, List.length_singleton]
      omega
    · rw [List.append_assoc (floating.take i)]
  · refine ⟨floating.take i ++
      (floating.drop (i + d.comments.length) ++ [line]).tail,
      ?_, ?_⟩
    · simp only [List.length_append, List.length_take,
        List.length_tail, List.length_drop,
        List.length_singleton]
      omega
    · rw [List.tail_append_of_ne_nil (by simp),
        List.append_assoc (floating.take i)]

/- So the comments in front are not kept. -/
theorem strip_ne_of_infix
    {d : Directive}
    {floating doc : List Bytes}
    {line : Bytes}
    (hComments : d.comments ≠ [])
    (hDoc : line ∉ doc)
    (hInfix : d.comments <:+: floating)
    (doc' : List Bytes) :
    d.strip (floating ++ [line] ++ doc) ≠
      floating ++ [line] ++ doc' := by
  intro hStrip
  rcases exists_strip_of_infix line doc hComments hInfix with
    ⟨left, hShort, hKept⟩
  have hPrefix := dropDangling_isPrefix (left ++ doc)
  -- the line behind the comments would stand in `doc`
  have hLine :
      (left ++ doc)[floating.length]? = some line := by
    rw [← hKept, hStrip] at hPrefix
    rcases hPrefix with ⟨rest, hRest⟩
    rw [← hRest]
    simp
  rw [List.getElem?_append_right hShort] at hLine
  exact hDoc (List.mem_of_getElem? hLine)

/-
  Removing the directive of a doc comment keeps the comments
  in front of the doc comment and leaves no directive in it,
  exactly if those comments do not hold the same lines.
-/
theorem clean_keeps_floating_iff
    {name : Bytes}
    {d : Directive}
    {decl : Decl}
    {floating : List Bytes}
    {doc : List DocLine}
    (hDecl : decl.isBad = false)
    (hStart :
      decl.start =
        floating ++ [[0x0a]] ++ doc.map DocLine.text)
    (hDoc : [0x0a] ∉ doc.map DocLine.text)
    (hFind : find name doc = .ok (some d)) :
    (∃ doc',
      Expand.clean (some d) decl =
        { decl with start := floating ++ [[0x0a]] ++ doc' } ∧
      find name (DocLine.unplaced doc') = .ok none) ↔
    ¬ d.comments <:+: floating := by
  rcases exists_occupies_of_find hFind with
    ⟨before, run, after, rfl, hRun⟩
  have hClean :
      Expand.clean (some d) decl =
        { decl with start := d.strip decl.start } := by
    simp [Expand.clean, Decl.withStart, hDecl]
  rw [hClean, hStart]
  constructor
  · rintro ⟨doc', hSame, _⟩ hInfix
    exact strip_ne_of_infix hRun.comments_ne_nil hDoc hInfix
      doc' (congrArg Decl.start hSame)
  · intro hInfix
    have hBlank : [0x0a] ∉ d.comments := by
      intro hMem
      apply hDoc
      rw [hRun.comments] at hMem
      simp only [List.map_append, List.mem_append]
      exact Or.inl (Or.inr hMem)
    have hFront :=
      not_prefix_of_not_infix hBlank hInfix
        ((before ++ run ++ after).map DocLine.text)
    rcases strip_of_occupies hRun _ hFront with
      ⟨kept, hKept, hStrip⟩
    refine ⟨dropDangling (before.map DocLine.text ++ kept),
      ?_, ?_⟩
    · rw [hStrip]
      simp only [List.append_assoc, List.cons_append,
        List.nil_append]
      rw [dropDangling_append_cons _ _ (by decide)]
    · rw [find_unplaced_eq_none_iff]
      intro text hText
      exact hRun.not_starts_of_mem_kept hKept
        ((dropDangling_isPrefix _).subset hText)

/- A comment in front that only quotes a part is kept. -/
theorem clean_keeps_quoted_line :
    ∃ d,
      find (utf8 "alias")
          (DocLine.unplaced
            [utf8 "// F.", utf8 "// @alias(A,",
              utf8 "// B)"]) = .ok (some d) ∧
      ∃ doc',
        Expand.clean (some d)
            { body := .func (utf8 "F") none
              start :=
                [utf8 "// @alias(A,", [0x0a], utf8 "// F.",
                  utf8 "// @alias(A,", utf8 "// B)"] } =
          { body := .func (utf8 "F") none
            start :=
              [utf8 "// @alias(A,"] ++ [[0x0a]] ++ doc' } ∧
        find (utf8 "alias") (DocLine.unplaced doc') =
          .ok none := by
  have hFind :
      find (utf8 "alias")
          (DocLine.unplaced
            [utf8 "// F.", utf8 "// @alias(A,",
              utf8 "// B)"]) =
        .ok (some
          { name := utf8 "alias"
            comments := [utf8 "// @alias(A,", utf8 "// B)"]
            arguments := utf8 "(A,\n B)"
            segments := [⟨0, {}⟩, ⟨4, {}⟩] }) := by
    decide +kernel
  refine ⟨_, hFind, ?_⟩
  exact (clean_keeps_floating_iff
    rfl rfl (by decide) hFind).mpr (by decide)

/-
  A comment in front that holds the same line is removed,
  and the directive stays.
-/
theorem clean_removes_equal_comment :
    ∃ d,
      find (utf8 "alias")
          (DocLine.unplaced [utf8 "// @alias(A)"]) =
        .ok (some d) ∧
      ¬ ∃ doc',
        Expand.clean (some d)
            { body := .func (utf8 "F") none
              start :=
                [utf8 "// @alias(A)", [0x0a],
                  utf8 "// @alias(A)"] } =
          { body := .func (utf8 "F") none
            start :=
              [utf8 "// @alias(A)"] ++ [[0x0a]] ++ doc' } ∧
        find (utf8 "alias") (DocLine.unplaced doc') =
          .ok none := by
  have hFind :
      find (utf8 "alias")
          (DocLine.unplaced [utf8 "// @alias(A)"]) =
        .ok (some
          { name := utf8 "alias"
            comments := [utf8 "// @alias(A)"]
            arguments := utf8 "(A)"
            segments := [⟨0, {}⟩] }) := by
    decide +kernel
  refine ⟨_, hFind, ?_⟩
  rintro ⟨doc', hSame, _⟩
  have hHead :
      some [0x0a] = some (utf8 "// @alias(A)") :=
    congrArg (fun decl => decl.start.head?) hSame
  exact absurd hHead (by decide)

end Directive

end Namesake
