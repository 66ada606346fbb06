import Namesake.Proofs.Expand.DocComments
import Namesake.Proofs.Generate.Accounting
import Namesake.Proofs.Source.Adjoining

/-
  The doc comments of the duplicates of a file.  A duplicate
  is given what is left of the doc comment behind the last
  line feed, and a line feed stands behind a block comment
  that ends its line as well as for a blank line.

  Main declarations:
    * `Source.Gap.BlockEndsLine`
    * `Source.Gap.isDecorated_startLines`
    * `Generate.HasDocBehind`
    * `Generate.clones_keep_doc_iff`
-/

namespace Namesake

------------------------------------------------------------
-- Line Feeds in a Doc Comment
------------------------------------------------------------

namespace Source.Gap

variable {lines : Lines}

/- Is one of the comments a block comment that ends its line? -/
def BlockEndsLine
    (lines : Lines)
    (next : Nat)
    (cs : List Comment) : Prop :=
  ∃ before c after,
    cs = before ++ c :: after ∧ c.isBlock = true ∧
      1 ≤ distance lines c.stop (follower next after)

/- Then its line feed is among the lines. -/
theorem exists_startLines_of_blockEndsLine
    {next : Nat}
    {cs : List Comment}
    (h : BlockEndsLine lines next cs) :
    ∃ front, ∃ c : Comment, ∃ rest,
      startLines lines next cs =
          front ++ c.text :: [0x0a] :: rest ∧
        c.isBlock = true := by
  rcases h with ⟨before, c, after, rfl, hBlock, hEnds⟩
  have hFeeds :
      ∃ more, feedsBehind lines next c after = [0x0a] :: more := by
    rcases Nat.exists_eq_add_of_le'
        (show 1 ≤ min (distance lines c.stop (follower next after)) 2
          from Nat.le_min.mpr ⟨hEnds, by omega⟩) with
      ⟨n, hCount⟩
    refine ⟨List.replicate n [0x0a], ?_⟩
    rw [feedsBehind, feeds_of_isBlock _ hBlock, hCount,
      List.replicate_succ]
  rcases hFeeds with ⟨more, hFeeds⟩
  refine ⟨startLines lines c.pos before, c,
    more ++ startLines lines next after, ?_, hBlock⟩
  rw [startLines_append, startLines_cons, hFeeds]
  rfl

/- In adjoining comments nothing else has one. -/
theorem lineFeed_mem_startLines_iff
    {next : Nat}
    {cs : List Comment}
    (hTexts : ∀ c ∈ cs, c.text ≠ [0x0a])
    (hAdjoins : Adjoins lines next cs) :
    [0x0a] ∈ startLines lines next cs ↔
      BlockEndsLine lines next cs := by
  constructor
  · intro hMem
    induction cs with
    | nil => cases hMem
    | cons c cs ih =>
        rcases List.forall_mem_cons.mp hTexts with
          ⟨hText, hLater⟩
        rw [startLines_cons, List.mem_cons, List.mem_append]
          at hMem
        rcases hMem with hHere | hFeed | hMem
        · exact absurd hHere.symm hText
        · refine ⟨[], c, cs, rfl, ?_⟩
          unfold feedsBehind at hFeed
          cases hBlock : c.isBlock with
          | true =>
              refine ⟨rfl, ?_⟩
              by_contra hNone
              rw [Nat.lt_one_iff.mp (Nat.lt_of_not_le hNone)] at hFeed
              rw [feeds_of_isBlock _ hBlock] at hFeed
              cases hFeed
          | false =>
              have hNear := hAdjoins.1 hBlock
              rw [feeds_of_line _ hBlock, List.mem_replicate]
                at hFeed
              omega
        · rcases ih hLater hAdjoins.2 hMem with
            ⟨before, c', after, rfl, hEnds⟩
          exact ⟨c :: before, c', after, rfl, hEnds⟩
  · intro hEnds
    rcases exists_startLines_of_blockEndsLine hEnds with
      ⟨front, c, rest, hLines, _⟩
    rw [hLines]
    simp

/- Adjoining line comments are kept without line feeds. -/
theorem startLines_of_line
    {next : Nat}
    {cs : List Comment}
    (hAdjoins : Adjoins lines next cs)
    (hLines : ∀ c ∈ cs, c.isBlock = false) :
    startLines lines next cs = cs.map Comment.text := by
  induction cs with
  | nil => rfl
  | cons c cs ih =>
      rcases List.forall_mem_cons.mp hLines with ⟨hLine, hLater⟩
      have hNone : feedsBehind lines next c cs = [] := by
        have hNear := hAdjoins.1 hLine
        rw [feedsBehind, feeds_of_line _ hLine,
          List.replicate_eq_nil_iff]
        omega
      rw [startLines_cons, hNone, ih hAdjoins.2 hLater]
      rfl

/- A blank line above leaves nothing of what is above it. -/
theorem exists_concat_of_blank
    {next : Nat}
    {above : List Comment}
    {c : Comment}
    (hLast : above.getLast? = some c)
    (hBlank : 2 ≤ distance lines c.stop next) :
    ∃ front,
      startLines lines next above = front ++ [[0x0a]] := by
  rcases List.getLast?_eq_some_iff.mp hLast with ⟨before, rfl⟩
  have hFeeds :
      ∃ more, feedsBehind lines next c [] = more ++ [[0x0a]] := by
    show
      ∃ more,
        feeds c (distance lines c.stop next) = more ++ [[0x0a]]
    cases hBlock : c.isBlock with
    | true =>
        refine ⟨[[0x0a]], ?_⟩
        rw [feeds_of_isBlock _ hBlock, Nat.min_eq_right hBlank]
        rfl
    | false =>
        refine ⟨[], ?_⟩
        rw [feeds_of_line _ hBlock, Nat.min_eq_right hBlank]
        rfl
  rcases hFeeds with ⟨more, hFeeds⟩
  refine ⟨startLines lines c.pos before ++ c.text :: more, ?_⟩
  rw [startLines_append, startLines_cons, hFeeds]
  simp [startLines, follower]

/- How the comments of a doc comment are kept behind others. -/
theorem isDecorated_startLines
    {next : Nat}
    {cs : List Comment}
    {floating : List Bytes}
    (hBlank : floating = [] ∨ ∃ front, floating = front ++ [[0x0a]])
    (hTexts : ∀ c ∈ cs, c.text ≠ [0x0a])
    (hAdjoins : Adjoins lines next cs) :
    Expand.IsDecorated (cs.map Comment.text) floating
      (startLines lines next cs) := by
  refine
    { blank := Expand.docComment_eq_nil_iff.mpr hBlank
      texts := filter_startLines next hTexts
      feeds := ?_ }
  intro hFeed
  rcases exists_startLines_of_blockEndsLine
      ((lineFeed_mem_startLines_iff hTexts hAdjoins).mp hFeed) with
    ⟨front, c, rest, hLines, hBlock⟩
  exact ⟨front, c.text, rest, hLines, hBlock⟩

end Source.Gap

namespace Generate

open Directive
open Expand (IsDocWithout)
open Source (Gap TopDecl)
open Source.File (IsLed)

------------------------------------------------------------
-- Duplicates of a File
------------------------------------------------------------

/-
  The comment lines of a declaration end in those of its doc
  comment, with nothing or with a blank line above them.
-/
structure HasDocBehind
    (lines : Source.Lines)
    (item : Source.Item)
    (d : TopDecl)
    (doc : List Source.Comment)
    (floating : List Bytes) : Prop where
  start :
    item.decl.start = floating ++ Gap.startLines lines d.pos doc
  blank : floating = [] ∨ ∃ front, floating = front ++ [[0x0a]]

/-
  They do so if the declaration is given its doc comment and
  the comments that a blank line separates from it.
-/
theorem hasDocBehind_of_isLed
    {lines : Source.Lines}
    {comments : List Source.Comment}
    {item : Source.Item}
    {d : TopDecl}
    {above doc : List Source.Comment}
    (hLed :
      Source.File.IsLed lines comments item d (above ++ doc))
    (hBlank :
      ∀ c ∈ above.getLast?,
        2 ≤ Gap.distance lines c.stop
              (Gap.follower d.pos doc)) :
    HasDocBehind lines item d doc
      (Gap.startLines lines (Gap.follower d.pos doc) above) := by
  refine ⟨?_, ?_⟩
  · rw [hLed.start, Gap.startLines_append]
  · cases hLast : above.getLast? with
    | none =>
        rw [List.getLast?_eq_none_iff.mp hLast]
        exact Or.inl rfl
    | some c =>
        exact Or.inr
          (Gap.exists_concat_of_blank hLast (hBlank c hLast))

/-
  Every expansion of a file gives all its duplicates the same
  doc comment.  If the comment lines of the declaration end in
  its doc comment, as they do if it is given that comment with
  a blank line above, this is the doc comment without the
  directive exactly if no block comment of it ends its line
  and the lines of the directive do not stand above it.

  A doc comment may also begin on the last line of a block
  comment behind the declaration before.  What it has on that
  line is then given to that declaration, so the comment lines
  do not end in the doc comment, and nothing is said of it.
-/
theorem clones_keep_doc_iff
    {path src : Bytes}
    {f : Source.File}
    {s : Settings}
    {e : Expansion}
    (hParse : Source.File.parse path src = .ok f)
    (hMem : e ∈ (expandFile s f).expansions) :
    ∃ tree d given doc before after kept,
      (Source.parse path src).tree = some tree ∧
        d ∈ tree.decls ∧
        IsLed (Source.parse path src).lines
          tree.comments.flatten e.site.item d given ∧
        d.doc = some doc ∧
        doc.map Source.Comment.text =
          before ++ e.site.directive.comments ++ after ∧
        List.Forall₂
          (fun a clone =>
            clone.start =
              Deprecation.annotate a.deprecation kept)
          e.aliases e.result.clones ∧
        (∀ above,
          given = above ++ doc →
          (∀ c ∈ above.getLast?,
            2 ≤
              Gap.distance (Source.parse path src).lines c.stop
                (Gap.follower d.pos doc)) →
          HasDocBehind (Source.parse path src).lines e.site.item d
            doc
            (Gap.startLines (Source.parse path src).lines
              (Gap.follower d.pos doc) above)) ∧
        ∀ floating,
          HasDocBehind (Source.parse path src).lines
              e.site.item d doc floating →
            (IsDocWithout before after kept ↔
              ¬ Gap.BlockEndsLine (Source.parse path src).lines
                  d.pos doc ∧
                ¬ e.site.directive.comments <:+: floating) := by
  rcases expands_of_mem_expansions hMem with ⟨hItem, hExpands⟩
  rcases Source.File.exists_isLed_of_parse hParse hItem with
    ⟨tree, hTree, d, hDecl, given, hLed⟩
  have hFound := hExpands.found
  cases hDoc : d.doc with
  | none =>
      rw [hLed.doc, hDoc] at hFound
      cases hFound
  | some doc =>
      have hTexts :
          e.site.item.doc.map DocLine.text =
            doc.map Source.Comment.text := by
        rw [hLed.doc, hDoc, Source.File.map_text_docLines]
      rcases exists_occupies_of_find hFound with
        ⟨before, run, after, hLines, hRun⟩
      rw [hLines] at hTexts hFound
      refine ⟨tree, d, given, doc, before.map DocLine.text,
        after.map DocLine.text,
        Expand.docComment e.result.original.start, hTree, hDecl,
        hLed, hDoc, ?_, ?_, ?_, ?_⟩
      · rw [← hTexts, hRun.comments, List.map_append,
          List.map_append]
      · exact hExpands.clones.imp fun a clone hIs => hIs.start_eq
      · rintro above rfl hBlank
        exact hasDocBehind_of_isLed hLed hBlank
      · intro floating hBehind
        have hPlain :=
          Source.File.text_ne_of_mem_doc hTree hDecl hDoc
        have hAdjoins :=
          Source.adjoins_of_mem_decls hTree hDecl hDoc
        have hDecorated :=
          Gap.isDecorated_startLines hBehind.blank hPlain hAdjoins
        rw [← hTexts] at hDecorated
        have hStart :
            e.result.original.start =
              e.site.directive.strip
                (floating ++
                  Gap.startLines (Source.parse path src).lines
                    d.pos doc) := by
          rw [hExpands.original, ← hBehind.start]
        rw [hStart, Expand.isDocWithout_iff hFound hRun hDecorated,
          Gap.lineFeed_mem_startLines_iff hPlain hAdjoins]

/- A block comment above the line with the directive. -/
def blockText : Bytes :=
  utf8
    "package p\n\n/* F does it. */\n// @alias(B)\nfunc F() \x7b\x7d\n"

/-
  The doc comment of a file with one expansion, the lines of
  the directive and the comment lines of the declaration and
  of its duplicates.
-/
theorem exists_expansion_of_outline
    (path src : Bytes)
    (doc lines start : List Bytes)
    (starts : List (List Bytes))
    (h :
      (match Source.File.parse path src with
        | .ok f =>
            (expandFile Settings.standard f).expansions.map
              fun e =>
                (e.site.item.doc.map DocLine.text,
                  e.site.directive.comments,
                  e.site.item.decl.start,
                  e.result.clones.map Decl.start)
        | .error _ => []) =
        [(doc, lines, start, starts)]) :
    ∃ f e,
      Source.File.parse path src = .ok f ∧
        e ∈ (expandFile Settings.standard f).expansions ∧
        e.site.item.doc.map DocLine.text = doc ∧
        e.site.directive.comments = lines ∧
        e.site.item.decl.start = start ∧
        e.result.clones.map Decl.start = starts := by
  cases hParse : Source.File.parse path src with
  | error e =>
      rw [hParse] at h
      cases h
  | ok f =>
      rw [hParse] at h
      rcases List.map_eq_singleton_iff.mp h with ⟨e, hOne, hEq⟩
      simp only [Prod.mk.injEq] at hEq
      refine ⟨f, e, rfl, ?_, hEq⟩
      rw [hOne]
      exact List.mem_singleton_self e

/- Its duplicate has no doc comment. -/
theorem clone_loses_block_comment :
    ∃ f e,
      Source.File.parse (utf8 "a.go") blockText = .ok f ∧
        e ∈ (expandFile Settings.standard f).expansions ∧
        e.site.item.doc.map DocLine.text =
          [utf8 "/* F does it. */", utf8 "// @alias(B)"] ∧
        e.site.directive.comments = [utf8 "// @alias(B)"] ∧
        e.site.item.decl.start =
          [utf8 "/* F does it. */", [0x0a], utf8 "// @alias(B)"] ∧
        e.result.clones.map Decl.start = [[]] ∧
        ¬ IsDocWithout [utf8 "/* F does it. */"] [] [] := by
  rcases exists_expansion_of_outline (utf8 "a.go") blockText
      [utf8 "/* F does it. */", utf8 "// @alias(B)"]
      [utf8 "// @alias(B)"]
      [utf8 "/* F does it. */", [0x0a], utf8 "// @alias(B)"]
      [[]] (by decide +kernel) with
    ⟨f, e, hParse, hMem, hTexts, hDirective, hStart, hStarts⟩
  refine ⟨f, e, hParse, hMem, hTexts, hDirective, hStart, hStarts,
    ?_⟩
  intro hKept
  have hLost := hKept.spoken
  revert hLost
  decide

/- A comment, a blank line and the doc comment of a function. -/
def partedText : Bytes :=
  utf8
    "package p\n\n// Note.\n\n// F runs.\n// @alias(B)\nfunc F() \x7b\x7d\n"

theorem clone_keeps_parted_doc :
    ∃ f e before after kept,
      Source.File.parse (utf8 "a.go") partedText = .ok f ∧
        e ∈ (expandFile Settings.standard f).expansions ∧
        before ++ e.site.directive.comments ++ after =
          [utf8 "// F runs.", utf8 "// @alias(B)"] ∧
        List.Forall₂
          (fun a clone =>
            clone.start =
              Deprecation.annotate a.deprecation kept)
          e.aliases e.result.clones ∧
        IsDocWithout before after kept := by
  rcases exists_expansion_of_outline (utf8 "a.go") partedText
      [utf8 "// F runs.", utf8 "// @alias(B)"]
      [utf8 "// @alias(B)"]
      [utf8 "// Note.", [0x0a], utf8 "// F runs.",
        utf8 "// @alias(B)"]
      [[utf8 "// F runs."]] (by decide +kernel) with
    ⟨f, e, hParse, hMem, hTexts, hDirective, hStart, _⟩
  rcases clones_keep_doc_iff hParse hMem with
    ⟨tree, d, given, doc, before, after, kept, hTree, hDecl, hLed,
      hDoc, hParts, hClones, _, hKept⟩
  have hDocTexts :
      doc.map Source.Comment.text =
        [utf8 "// F runs.", utf8 "// @alias(B)"] := by
    rw [← hTexts, hLed.doc, hDoc, Source.File.map_text_docLines]
  have hPlain : ∀ c ∈ doc, c.isBlock = false := by
    intro c hComment
    have hText := List.mem_map_of_mem (f := Source.Comment.text)
      hComment
    rw [hDocTexts] at hText
    unfold Source.Comment.isBlock
    revert hText
    generalize c.text = text
    intro hText
    rcases List.mem_cons.mp hText with rfl | hLast
    · decide
    · rw [List.mem_singleton.mp hLast]
      decide
  have hLines :=
    Gap.startLines_of_line
      (Source.adjoins_of_mem_decls hTree hDecl hDoc) hPlain
  refine ⟨f, e, before, after, kept, hParse, hMem, ?_, hClones, ?_⟩
  · rw [← hParts, hDocTexts]
  · refine (hKept [utf8 "// Note.", [0x0a]] ⟨?_, ?_⟩).mpr ⟨?_, ?_⟩
    · rw [hLines, hDocTexts, hStart]
      rfl
    · exact Or.inr ⟨[utf8 "// Note."], rfl⟩
    · rintro ⟨_, c, _, rfl, hBlock, _⟩
      rw [hPlain c (by simp)] at hBlock
      cases hBlock
    · rw [hDirective]
      decide

end Generate

end Namesake
