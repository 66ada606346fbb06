import Namesake.Proofs.Arguments.Exactness
import Namesake.Proofs.Directive.Strip
import Namesake.Proofs.Expand.Clones
import Namesake.Proofs.Text.Bytes

/-
  Directives in the output of an expansion.  The declaration
  itself has none left, and a duplicate has one exactly if a
  note or a version of its alias continues on a further line
  of the marker that starts one.

  Main declarations:
    * `Deprecation.reopens`
    * `Directive.not_starts_of_mem_strip`
    * `Expand.find_annotate_eq_none_iff`
    * `Expand.expand_output_has_no_directive_iff`
-/

namespace Namesake

------------------------------------------------------------
-- Lines of a Marker
------------------------------------------------------------

namespace Deprecation

/-
  Does a line of the marker behind the first one start the
  named directive?
-/
def reopens
    (name : Bytes)
    (d : Deprecation) : Bool :=
  d.markerText.lines.tail.any fun line =>
    Directive.starts name (commentLine line)

end Deprecation

namespace Directive

theorem not_starts_slashes
    (name : Bytes) :
    starts name slashes = false := by
  simp [starts, matchLine?, DocLine.body?, slashes,
    List.isPrefixOf?]

/- Text that does not begin with an at sign starts nothing. -/
theorem not_starts_commentLine
    {b : UInt8}
    (name line : Bytes)
    (hTrailing : Deprecation.isTrailing b = false)
    (hMargin : isMargin b = false)
    (hByte : b ≠ 0x40) :
    starts name (Deprecation.commentLine (b :: line)) =
      false := by
  have hText :
      Deprecation.commentLine (b :: line) =
        slashes ++ 0x20 :: b ::
          Bytes.trimRight Deprecation.isTrailing line := by
    simp [Deprecation.commentLine,
      Bytes.trimRight_cons line hTrailing]
  have hSpace : isMargin 0x20 = true := rfl
  simp [hText, starts, matchLine?, DocLine.body?, slashes,
    List.isPrefixOf?, hSpace, hMargin, hByte.symm]

end Directive

/- The first line of a marker starts no directive. -/
theorem Deprecation.starts_markerLines_iff
    (name : Bytes)
    (d : Deprecation) :
    (∀ text ∈ d.markerLines,
        Directive.starts name text = false) ↔
      d.reopens name = false := by
  have hFront : (0x0a : UInt8) ∉ utf8 "Deprecated: " := by
    decide
  rcases Bytes.splitOn_append_of_not_mem
      (d.markerText.drop (utf8 "Deprecated: ").length)
      hFront with ⟨piece, pieces, hSplit⟩
  have hText :
      utf8 "Deprecated: " ++
          d.markerText.drop (utf8 "Deprecated: ").length =
        d.markerText := by
    simp [markerText]
  rw [hText] at hSplit
  have hFirst :
      Directive.starts name
          (commentLine (utf8 "Deprecated: " ++ piece)) =
        false :=
    Directive.not_starts_commentLine name
      (utf8 "eprecated: " ++ piece)
      rfl rfl (by decide)
  unfold markerLines reopens Bytes.lines
  rw [hSplit]
  simp [hFirst]

------------------------------------------------------------
-- Comments of the Output
------------------------------------------------------------

/- A comment that is stripped of its directive has no other. -/
theorem Directive.not_starts_of_mem_strip
    {name : Bytes}
    {d : Directive}
    {doc : List DocLine}
    (hFind : find name doc = .ok (some d))
    {text : Bytes}
    (hText : text ∈ d.strip (doc.map DocLine.text)) :
    starts name text = false := by
  rcases exists_occupies_of_find hFind with
    ⟨before, run, after, rfl, hRun⟩
  have hFront :
      ∀ left right : List Bytes,
        [] = left ++ right → right ≠ [] →
          ¬ d.comments <+:
              right ++
                (before ++ run ++ after).map DocLine.text := by
    intro left right hEq hRight
    exact absurd (List.append_eq_nil_iff.mp hEq.symm).2 hRight
  rcases strip_of_occupies hRun [] hFront with
    ⟨kept, hKept, hStrip⟩
  rw [List.nil_append, List.nil_append] at hStrip
  rw [hStrip] at hText
  exact hRun.not_starts_of_mem_kept hKept
    ((dropDangling_isPrefix _).subset hText)

namespace Expand

open Directive

/-
  A marker adds a directive to a comment without one exactly
  if it reopens one.
-/
theorem find_annotate_eq_none_iff
    {name : Bytes}
    {start : List Bytes}
    (deprecation : Option Deprecation)
    (hStart : ∀ text ∈ start, starts name text = false) :
    find name
        (DocLine.unplaced
          (Deprecation.annotate deprecation start)) =
        .ok none ↔
      ∀ dep, deprecation = some dep →
        dep.reopens name = false := by
  rw [find_unplaced_eq_none_iff]
  cases deprecation with
  | none => simpa [Deprecation.annotate] using hStart
  | some dep =>
      have hFront :
          ∀ text ∈
              (if start.isEmpty then []
                else start ++ [slashes]),
            starts name text = false := by
        intro text hText
        split at hText
        · cases hText
        · rcases List.mem_append.mp hText with hDoc | hLast
          · exact hStart text hDoc
          · rw [List.mem_singleton.mp hLast]
            exact not_starts_slashes name
      have hMarker := dep.starts_markerLines_iff name
      constructor
      · intro hNone other hOther
        cases hOther
        apply hMarker.mp
        intro text hText
        exact hNone text (List.mem_append_right _ hText)
      · intro hClosed text hText
        rcases List.mem_append.mp hText with hOld | hNew
        · exact hFront text hOld
        · exact hMarker.mpr (hClosed dep rfl) text hNew

------------------------------------------------------------
-- The Output of an Expansion
------------------------------------------------------------

/-
  Expanding a declaration for the directive of its comment
  leaves no directive on it.  A duplicate has none, and no
  error either, exactly if the marker of its alias does not
  reopen one.
-/
theorem expand_output_has_no_directive_iff
    {name : Bytes}
    {d : Directive}
    {decl : Decl}
    {doc : List DocLine}
    {locate : Decl.Locator}
    {kind : Kind}
    {aliases : List Alias}
    (hKind : decl.classify locate = .ok kind)
    (hDoc : doc.map DocLine.text = decl.start)
    (hFind : find name doc = .ok (some d))
    (hAliases : d.aliases = .ok aliases) :
    ∃ result,
      expand
          { decl := decl
            aliases := aliases
            directive := some d
            locate := locate } = .ok result ∧
      find name (DocLine.unplaced result.original.start) =
        .ok none ∧
      List.Forall₂
        (fun a clone =>
          find name (DocLine.unplaced clone.start) =
              .ok none ↔
            ∀ dep, a.deprecation = some dep →
              dep.reopens name = false)
        aliases result.clones := by
  have hClean := clean_of_classify (some d) hKind
  have hStart :
      ∀ text ∈ (clean (some d) decl).start,
        starts name text = false := by
    intro text hText
    rw [hClean] at hText
    simp only [← hDoc] at hText
    exact not_starts_of_mem_strip hFind hText
  refine ⟨_, expand_of_classify
    (Alias.ne_nil_of_parse hAliases) hKind, ?_, ?_⟩
  · exact (find_unplaced_eq_none_iff name _).mpr hStart
  · simp only [List.forall₂_map_right_iff]
    refine List.forall₂_same.mpr fun a _ => ?_
    apply find_annotate_eq_none_iff a.deprecation
    intro text hText
    exact hStart text ((docComment_isSuffix _).subset hText)

/- A directive whose note is written on two lines. -/
def noteOnTwoLines : List Bytes :=
  [utf8 "// F.", utf8 "// @alias(A,",
    utf8 "// deprecated(B, note=\"old\\nnew\"))"]

theorem expand_note_on_two_lines :
    ∃ d aliases result,
      find (utf8 "alias") (DocLine.unplaced noteOnTwoLines) =
        .ok (some d) ∧
      d.aliases = .ok aliases ∧
      expand
          { decl :=
              { body := .func (utf8 "F") none
                start := noteOnTwoLines }
            aliases := aliases
            directive := some d } = .ok result ∧
      ∀ out ∈ result.decls,
        find (utf8 "alias") (DocLine.unplaced out.start) =
          .ok none := by
  have hFind :
      find (utf8 "alias") (DocLine.unplaced noteOnTwoLines) =
        .ok (some
          { name := utf8 "alias"
            comments := noteOnTwoLines.tail
            arguments :=
              utf8 "(A,\n deprecated(B, note=\"old\\nnew\"))"
            segments := [⟨0, {}⟩, ⟨4, {}⟩] }) := by
    decide +kernel
  have hAliases :
      Directive.aliases
          { name := utf8 "alias"
            comments := noteOnTwoLines.tail
            arguments :=
              utf8 "(A,\n deprecated(B, note=\"old\\nnew\"))"
            segments := [⟨0, {}⟩, ⟨4, {}⟩] } =
        .ok
          [{ name := utf8 "A" },
            { name := utf8 "B"
              deprecation :=
                some { note := some (utf8 "old\nnew") } }] := by
    decide +kernel
  have hKind :
      Decl.classify
          { body := .func (utf8 "F") none
            start := noteOnTwoLines } .unknown =
        .ok .function := rfl
  rcases expand_output_has_no_directive_iff hKind rfl
      hFind hAliases with
    ⟨result, hExpand, hOriginal, hClones⟩
  refine ⟨_, _, result, hFind, hAliases, hExpand, ?_⟩
  intro out hOut
  rcases List.mem_cons.mp hOut with rfl | hOut
  · exact hOriginal
  · generalize result.clones = clones at hClones hOut
    cases hClones with
    | cons hPlain hRest =>
        cases hRest with
        | cons hMarked hNil =>
            cases hNil
            rcases List.mem_cons.mp hOut with rfl | hLast
            · exact hPlain.mpr (by simp)
            · rw [List.mem_singleton.mp hLast]
              apply hMarked.mpr
              intro dep hDep
              cases hDep
              decide +kernel

/- A directive whose note quotes one on a line of its own. -/
def noteWithDirective : List Bytes :=
  [utf8 "// @alias(deprecated(B, note=\"x\\n@alias(C)\"))"]

theorem expand_note_with_directive :
    ∃ d aliases result,
      find (utf8 "alias")
          (DocLine.unplaced noteWithDirective) =
        .ok (some d) ∧
      d.aliases = .ok aliases ∧
      expand
          { decl :=
              { body := .func (utf8 "F") none
                start := noteWithDirective }
            aliases := aliases
            directive := some d } = .ok result ∧
      ∃ out ∈ result.decls,
        find (utf8 "alias") (DocLine.unplaced out.start) ≠
          .ok none := by
  refine
    ⟨{ name := utf8 "alias"
       comments := noteWithDirective
       arguments :=
         utf8 "(deprecated(B, note=\"x\\n@alias(C)\"))"
       segments := [⟨0, {}⟩] },
      [{ name := utf8 "B"
         deprecation :=
           some { note := some (utf8 "x\n@alias(C)") } }],
      _, by decide +kernel, by decide +kernel, rfl, ?_⟩
  refine ⟨_, List.mem_cons_of_mem _ List.mem_cons_self, ?_⟩
  decide +kernel

end Expand

end Namesake
