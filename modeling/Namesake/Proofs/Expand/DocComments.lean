import Namesake.Proofs.Directive.Placement
import Namesake.Proofs.Directive.Residue
import Namesake.Proofs.Expand.Retrigger

/-
  The doc comments of duplicates.  What is kept behind the
  last line feed is the doc comment without the directive, if
  the lines of the doc comment are kept without line feeds
  and no earlier lines are taken for those of the directive.

  Main declarations:
    * `Expand.IsDocWithout`
    * `Expand.IsDecorated`
    * `Expand.isDocWithout_iff`
-/

namespace Namesake

namespace Expand

open Directive

------------------------------------------------------------
-- Doc Comments Without a Directive
------------------------------------------------------------

/-
  A doc comment without its directive: the lines before and
  after the directive in order, but for separators.
-/
structure IsDocWithout
    (before after kept : List Bytes) : Prop where
  sublist : kept.Sublist (before ++ after)
  spoken : spoken kept = spoken (before ++ after)

/- Lines that are kept behind a line feed stay as they are. -/
theorem docComment_dropDangling
    {floating rest : List Bytes}
    (hFloating : docComment floating = [])
    (hRest : [0x0a] ∉ rest) :
    docComment (dropDangling (floating ++ rest)) =
      dropDangling rest := by
  have hKept : [0x0a] ∉ dropDangling rest := fun hMem =>
    hRest ((dropDangling_isPrefix rest).subset hMem)
  have hParts :
      dropDangling (floating ++ rest) =
        floating ++ dropDangling rest ∨ floating = [] := by
    rcases docComment_eq_nil_iff.mp hFloating with
      rfl | ⟨front, rfl⟩
    · exact Or.inr rfl
    · left
      rw [List.append_assoc, List.singleton_append,
        dropDangling_append_cons _ _ (by decide),
        List.append_assoc, List.singleton_append]
  rcases hParts with hParts | rfl
  · rw [hParts, docComment_append _ hKept, hFloating,
      List.nil_append]
  · have hAll := docComment_append [] hKept
    simpa [docComment] using hAll

/- A line that is not in a run stands before or after it. -/
theorem append_cons_eq_append_append
    {line : Bytes}
    {front rest before run after : List Bytes}
    (hLine : line ∉ run)
    (h : front ++ line :: rest = before ++ run ++ after) :
    (∃ between,
        before = front ++ line :: between ∧
          rest = between ++ run ++ after) ∨
      ∃ between,
        after = between ++ line :: rest ∧
          front = before ++ run ++ between := by
  rcases List.append_eq_append_iff.mp h with
    ⟨left, hLeft, hRight⟩ | ⟨between, hFront, hAfter⟩
  · cases left with
    | nil =>
        rw [List.append_nil] at hLeft
        rw [List.nil_append] at hRight
        exact Or.inr ⟨[], hRight.symm, by rw [hLeft, List.append_nil]⟩
    | cons line' left =>
        rw [List.cons_append, List.cons.injEq] at hRight
        rcases hRight with ⟨rfl, rfl⟩
        rcases List.append_eq_append_iff.mp hLeft with
          ⟨head, _, hRun⟩ | ⟨head, hBefore, hRun⟩
        · exact absurd (by rw [hRun]; simp) hLine
        · cases head with
          | nil =>
              rw [List.nil_append] at hRun
              exact absurd (by rw [← hRun]; simp) hLine
          | cons line' between =>
              rw [List.cons_append, List.cons.injEq] at hRun
              rcases hRun with ⟨rfl, rfl⟩
              exact Or.inl ⟨between, hBefore, rfl⟩
  · exact Or.inr ⟨between, hAfter, hFront⟩

/- Of the lines behind a run no line is dropped that speaks. -/
theorem exists_rejoin_of_speaks
    {line : Bytes}
    (before between rest : List Bytes)
    (hSpeaks : isSeparator line = false) :
    ∃ between',
      rejoin before (between ++ line :: rest) =
        before ++ (between' ++ line :: rest) := by
  rw [rejoin_eq]
  split
  · rename_i hMeets
    cases between with
    | nil =>
        simp [meets, hSpeaks] at hMeets
    | cons other between => exact ⟨between, rfl⟩
  · exact ⟨between, rfl⟩

/-
  What comes behind a line that speaks and a line feed is all
  that can be left of a doc comment without its directive.
-/
theorem docComment_strip_sublist
    {d : Directive}
    {line : Bytes}
    (front rest : List Bytes)
    (hLine : line ∉ d.comments)
    (hFeed : [0x0a] ∉ d.comments)
    (hSpeaks : isSeparator line = false) :
    (docComment
        (d.strip (front ++ line :: [0x0a] :: rest))).Sublist
      rest := by
  have hBehind
      (front : List Bytes)
      {kept : List Bytes}
      (hKept : kept.Sublist rest) :
      (docComment (front ++ line :: [0x0a] :: kept)).Sublist
        rest := by
    rw [List.append_cons, docComment_append_lineFeed]
    exact (docComment_isSuffix kept).sublist.trans hKept
  have hDangling
      (front kept : List Bytes) :
      dropDangling (front ++ line :: [0x0a] :: kept) =
        front ++ line :: [0x0a] :: dropDangling kept := by
    rw [List.append_cons, dropDangling_append_cons _ _ (by decide),
      ← List.append_cons]
  rcases strip_cases d (front ++ line :: [0x0a] :: rest) with
    hSame | ⟨before, after, hLines, hNil, hStrip⟩
  · rw [hSame]
    exact hBehind front (List.Sublist.refl rest)
  · rw [hStrip]
    rcases append_cons_eq_append_append hLine hLines with
      ⟨between, rfl, hRest⟩ | ⟨between, rfl, _⟩
    · -- the directive is taken out of `rest`
      rw [← List.nil_append ([0x0a] :: rest)] at hRest
      rcases append_cons_eq_append_append hFeed hRest with
        ⟨between, rfl, rfl⟩ | ⟨_, _, hFront⟩
      · rcases exists_rejoin_eq
            (front ++ line :: ([] ++ [0x0a] :: between)) after with
          ⟨kept, hKept, hJoin⟩
        have hAfter : kept.Sublist after := by
          rcases hKept with hSame | hTail
          · rw [hSame]
          · rw [hTail]
            exact List.tail_sublist after
        have hParts :
            rejoin (front ++ line :: ([] ++ [0x0a] :: between))
                after =
              front ++ line :: [0x0a] :: (between ++ kept) := by
          rw [hJoin]
          simp
        rw [hParts, hDangling]
        apply hBehind
        rw [List.append_assoc]
        exact (dropDangling_isPrefix _).sublist.trans
          ((hAfter.trans (List.sublist_append_right _ _)).append_left
            between)
      · simp [hNil] at hFront
    · rcases exists_rejoin_of_speaks before between
          ([0x0a] :: rest) hSpeaks with ⟨between', hJoin⟩
      rw [hJoin, ← List.append_assoc, hDangling]
      exact hBehind _ (dropDangling_isPrefix rest).sublist

------------------------------------------------------------
-- Comments of a Directive
------------------------------------------------------------

/- A directive is written in line comments. -/
theorem exists_slashes_of_mem_comments
    {name line : Bytes}
    {d : Directive}
    {doc : List DocLine}
    (hFind : find name doc = .ok (some d))
    (hMem : line ∈ d.comments) :
    ∃ rest, line = slashes ++ rest := by
  rcases exists_isCutFrom_of_find hFind with
    ⟨_, ss, _, _, hCut⟩
  rw [hCut.comments] at hMem
  rcases List.mem_map.mp hMem with ⟨s, hStretch, rfl⟩
  rcases (hCut.slashed s hStretch).2 with ⟨body, hBody⟩
  exact ⟨body, (List.append_eq_of_isPrefixOf?_eq_some hBody).symm⟩

/- Does a comment line hold a block comment? -/
def isBlockLine
    (line : Bytes) : Bool :=
  line.startsWith [0x2f, 0x2a]

theorem isSeparator_of_isBlockLine
    {line : Bytes}
    (h : isBlockLine line = true) :
    isSeparator line = false := by
  rcases List.isPrefixOf_iff_prefix.mp h with ⟨rest, rfl⟩
  simp [isSeparator, slashes]

/- So a block comment is no part of it. -/
theorem blockLine_notMem_comments
    {name line : Bytes}
    {d : Directive}
    {doc : List DocLine}
    (hFind : find name doc = .ok (some d))
    (h : isBlockLine line = true) :
    line ∉ d.comments := by
  intro hMem
  rcases List.isPrefixOf_iff_prefix.mp h with ⟨rest, rfl⟩
  rcases exists_slashes_of_mem_comments hFind hMem with
    ⟨body, hBody⟩
  simp [slashes] at hBody

theorem lineFeed_notMem_comments
    {name : Bytes}
    {d : Directive}
    {doc : List DocLine}
    (hFind : find name doc = .ok (some d)) :
    [0x0a] ∉ d.comments := by
  intro hMem
  rcases exists_slashes_of_mem_comments hFind hMem with
    ⟨body, hBody⟩
  simp [slashes] at hBody

------------------------------------------------------------
-- Keeping Doc Comments
------------------------------------------------------------

/-
  The comment lines of a declaration: what floats above its
  doc comment, with a blank line behind it, and the lines of
  the doc comment, with line feeds behind block comments alone.
-/
structure IsDecorated
    (doc floating decorated : List Bytes) : Prop where
  blank : docComment floating = []
  texts : decorated.filter (· ≠ [0x0a]) = doc
  feeds :
    [0x0a] ∈ decorated →
      ∃ front line rest,
        decorated = front ++ line :: [0x0a] :: rest ∧
          isBlockLine line = true

/- With a line feed in it a doc comment loses a block comment. -/
theorem not_isDocWithout_of_lineFeed
    {name : Bytes}
    {d : Directive}
    {lines : List DocLine}
    {before after floating decorated : List Bytes}
    (hFind : find name lines = .ok (some d))
    (hLines :
      IsDecorated (before ++ d.comments ++ after) floating
        decorated)
    (hFeed : [0x0a] ∈ decorated) :
    ¬ IsDocWithout before after
        (docComment (d.strip (floating ++ decorated))) := by
  intro hKept
  rcases hLines.feeds hFeed with
    ⟨front, line, rest, rfl, hBlock⟩
  have hSpeaks := isSeparator_of_isBlockLine hBlock
  have hLine := blockLine_notMem_comments hFind hBlock
  have hLeft :=
    docComment_strip_sublist (floating ++ front) rest hLine
      (lineFeed_notMem_comments hFind) hSpeaks
  rw [List.append_assoc] at hLeft
  -- more of the block comments are in the doc comment than are kept
  have hCount :
      (docComment
          (d.strip
            (floating ++ (front ++ line :: [0x0a] :: rest)))).count
          line =
        (before ++ after).count line := by
    have hSpoken (lines : List Bytes) :
        (spoken lines).count line = lines.count line :=
      List.count_filter (by simpa using hSpeaks)
    rw [← hSpoken, hKept.spoken, hSpoken]
  have hDoc :
      (before ++ d.comments ++ after).count line =
        front.count line + 1 + rest.count line := by
    have hOther : line ≠ [0x0a] := by
      rintro rfl
      cases hSpeaks
    rw [← hLines.texts, List.count_filter (by simpa using hOther),
      List.count_append, List.count_cons_self,
      List.count_cons_of_ne hOther.symm]
    omega
  have hNone := List.count_eq_zero_of_not_mem hLine
  have hFewer := hLeft.count_le line
  simp only [List.count_append] at hDoc hCount
  omega

/- Nor is it kept if its directive is taken out elsewhere. -/
theorem not_isDocWithout_of_infix
    {name : Bytes}
    {d : Directive}
    {before run after : List DocLine}
    {floating : List Bytes}
    (hFind : find name (before ++ run ++ after) = .ok (some d))
    (hRun : Occupies name d before run after)
    (hBlank : docComment floating = [])
    (hDoc : [0x0a] ∉ (before ++ run ++ after).map DocLine.text)
    (hInfix : d.comments <:+: floating) :
    ¬ IsDocWithout (before.map DocLine.text)
        (after.map DocLine.text)
        (docComment
          (d.strip
            (floating ++
              (before ++ run ++ after).map DocLine.text))) := by
  intro hKept
  have hFeed := lineFeed_notMem_comments hFind
  rcases docComment_eq_nil_iff.mp hBlank with
    rfl | ⟨front, rfl⟩
  · exact hRun.comments_ne_nil (List.infix_nil.mp hInfix)
  · have hFront : d.comments <:+: front := by
      rcases List.infix_concat_iff.mp hInfix with hLast | hInside
      · rcases List.suffix_concat_iff.mp hLast with
          hNil | ⟨most, hMost, _⟩
        · exact absurd hNil hRun.comments_ne_nil
        · exact absurd (by rw [hMost]; simp) hFeed
      · exact hInside
    rcases exists_strip_of_infix [0x0a]
        ((before ++ run ++ after).map DocLine.text)
        hRun.comments_ne_nil hFront with
      ⟨left, _, hStrip⟩
    -- then the line that starts the directive stays
    rcases hRun.first with ⟨first, others, hFirst, hStarts⟩
    generalize hTail :
      others.map DocLine.text ++ after.map DocLine.text = tail
    have hText :
        (before ++ run ++ after).map DocLine.text =
          before.map DocLine.text ++ first.text :: tail := by
      rw [hFirst, ← hTail]
      simp
    have hSlashes : first.text ≠ slashes := by
      intro hSame
      rw [hSame, not_starts_slashes] at hStarts
      cases hStarts
    have hRest : [0x0a] ∉ first.text :: dropDangling tail := by
      rw [hText] at hDoc
      intro hMem
      apply hDoc
      apply List.mem_append_right
      rcases List.mem_cons.mp hMem with hHere | hLater
      · exact hHere ▸ List.mem_cons_self
      · exact List.mem_cons_of_mem _
          ((dropDangling_isPrefix tail).subset hLater)
    have hStays :
        first.text ∈
          docComment
            (d.strip
              (front ++ [[0x0a]] ++
                (before ++ run ++ after).map DocLine.text)) := by
      rw [hStrip, hText, ← List.append_assoc,
        dropDangling_append_cons _ _ hSlashes,
        docComment_append _ hRest]
      exact List.mem_append_right _ List.mem_cons_self
    have hNot :=
      hRun.not_starts_of_mem (hKept.sublist.subset hStays)
    rw [hNot] at hStarts
    cases hStarts

/- Otherwise nothing else is lost. -/
theorem isDocWithout_of_not_infix
    {name : Bytes}
    {d : Directive}
    {before run after : List DocLine}
    {floating : List Bytes}
    (hFind : find name (before ++ run ++ after) = .ok (some d))
    (hRun : Occupies name d before run after)
    (hBlank : docComment floating = [])
    (hDoc : [0x0a] ∉ (before ++ run ++ after).map DocLine.text)
    (hInfix : ¬ d.comments <:+: floating) :
    IsDocWithout (before.map DocLine.text)
        (after.map DocLine.text)
        (docComment
          (d.strip
            (floating ++
              (before ++ run ++ after).map DocLine.text))) := by
  have hFront :
      ∀ left right,
        floating = left ++ right → right ≠ [] →
          ¬ d.comments <+:
              right ++ (before ++ run ++ after).map DocLine.text := by
    intro left right hEq hRight
    rcases docComment_eq_nil_iff.mp hBlank with
      rfl | ⟨front, rfl⟩
    · exact absurd (List.append_eq_nil_iff.mp hEq.symm).2 hRight
    · exact not_prefix_of_not_infix
        (lineFeed_notMem_comments hFind)
        (fun h => hInfix (h.trans (List.prefix_append _ _).isInfix))
        _ left right hEq hRight
  have hStrip :=
    strip_of_indexIn? (hRun.indexIn?_append_eq floating hFront)
  have hLines :
      floating ++ (before ++ run ++ after).map DocLine.text =
        floating ++ before.map DocLine.text ++ d.comments ++
          after.map DocLine.text := by
    rw [hRun.comments]
    simp
  have hSublist :=
    sublist_after (floating ++ before.map DocLine.text)
      (after.map DocLine.text)
  have hSpoken :=
    spoken_after (floating ++ before.map DocLine.text)
      (after.map DocLine.text)
  rw [hLines, hStrip, rejoin_eq]
  generalize
    (if meets (floating ++ before.map DocLine.text)
        (after.map DocLine.text)
      then (after.map DocLine.text).tail
      else after.map DocLine.text) = left at hSublist hSpoken ⊢
  have hLeft : [0x0a] ∉ before.map DocLine.text ++ left := by
    intro hMem
    apply hDoc
    simp only [List.map_append, List.mem_append] at hMem ⊢
    rcases hMem with hBefore | hAfter
    · exact Or.inl (Or.inl hBefore)
    · exact Or.inr (hSublist.subset hAfter)
  rw [List.append_assoc, docComment_dropDangling hBlank hLeft]
  constructor
  · exact (dropDangling_isPrefix _).sublist.trans
      (hSublist.append_left _)
  · rw [spoken_dropDangling, spoken_append, hSpoken,
      spoken_append]

/-
  A duplicate keeps the doc comment of its declaration without
  the directive exactly if no block comment in it ends a line
  and the lines of the directive do not float above it.
-/
theorem isDocWithout_iff
    {name : Bytes}
    {d : Directive}
    {before run after : List DocLine}
    {floating decorated : List Bytes}
    (hFind : find name (before ++ run ++ after) = .ok (some d))
    (hRun : Occupies name d before run after)
    (hLines :
      IsDecorated ((before ++ run ++ after).map DocLine.text)
        floating decorated) :
    IsDocWithout (before.map DocLine.text)
        (after.map DocLine.text)
        (docComment (d.strip (floating ++ decorated))) ↔
      [0x0a] ∉ decorated ∧ ¬ d.comments <:+: floating := by
  have hSame
      (hPlain : [0x0a] ∉ decorated) :
      decorated = (before ++ run ++ after).map DocLine.text := by
    rw [← hLines.texts, eq_comm, List.filter_eq_self]
    intro line hMem
    refine decide_eq_true ?_
    rintro rfl
    exact hPlain hMem
  constructor
  · intro hKept
    have hPlain : [0x0a] ∉ decorated := by
      intro hFeed
      refine not_isDocWithout_of_lineFeed hFind ?_ hFeed hKept
      have hAll := hLines
      rw [List.map_append, List.map_append, ← hRun.comments]
        at hAll
      exact hAll
    refine ⟨hPlain, fun hInfix => ?_⟩
    have hTexts := hSame hPlain
    rw [hTexts] at hPlain hKept
    exact not_isDocWithout_of_infix hFind hRun hLines.blank
      hPlain hInfix hKept
  · rintro ⟨hPlain, hInfix⟩
    have hTexts := hSame hPlain
    rw [hTexts] at hPlain ⊢
    exact isDocWithout_of_not_infix hFind hRun hLines.blank
      hPlain hInfix

end Expand

end Namesake
