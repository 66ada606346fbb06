import Namesake.Generate.Run
import Namesake.Proofs.Generate.Accounting
import Namesake.Proofs.Source.Decorations

/-
  Floating comments in companions.  Above a duplicate there
  are none, as it is given a doc comment alone.  An import
  declaration is taken over with all comments it is given, so
  a companion has a floating comment above a declaration
  exactly if in its file a blank line is behind a comment that
  belongs to an import declaration.  The comments behind a
  declaration are part of its text, which imports and
  duplicates keep.

  Main declarations:
    * `Generate.lineFeed_notMem_start_of_isClone`
    * `Generate.FloatsAboveImport`
    * `Generate.map_written_clones`
    * `Generate.companion_floats_iff_import_floats`
-/

namespace Namesake

------------------------------------------------------------
-- Duplicates
------------------------------------------------------------

/- The lines of a marker are comments, not line feeds. -/
theorem Deprecation.lineFeed_notMem_markerLines
    (dep : Deprecation) :
    [0x0a] ∉ dep.markerLines := by
  intro hMem
  rcases List.mem_map.mp hMem with ⟨line, _, hLine⟩
  unfold commentLine at hLine
  simp only at hLine
  split at hLine
  · revert hLine
    decide
  · simp [slashes] at hLine

/- Without line feeds no comment is followed by a blank line. -/
theorem Source.Gap.not_hasFloating
    {start : List Bytes}
    (hStart : [0x0a] ∉ start) :
    ¬ HasFloating start := by
  rintro ⟨front, text, rest, _, rfl⟩
  apply hStart
  have hBlank : [0x0a] ∈ blankBehind text := by
    unfold blankBehind feeds
    rw [List.mem_replicate]
    refine ⟨?_, rfl⟩
    split <;> decide
  simp [hBlank]

namespace Generate

open Source.File (IsLed IsTrailed)
open Source.Gap (HasFloating HasBlank)

theorem lineFeed_notMem_start_of_isClone
    {original clone : Decl}
    {a : Alias}
    (h : Expand.IsClone original a clone) :
    [0x0a] ∉ clone.start := by
  have hDoc := Expand.lineFeed_notMem_docComment original.start
  cases hDep : a.deprecation with
  | none =>
      rw [h.plain hDep]
      exact hDoc
  | some dep =>
      rw [h.marked dep hDep]
      intro hMem
      rcases List.mem_append.mp hMem with hMem | hMarker
      · rcases List.mem_append.mp hMem with hMem | hEmpty
        · exact hDoc hMem
        · split at hEmpty
          · cases hEmpty
          · revert hEmpty
            decide
      · exact dep.lineFeed_notMem_markerLines hMarker

/- Each duplicate of an expansion is that of an alias. -/
theorem exists_isClone_of_mem
    {original d : Decl}
    {aliases : List Alias}
    {ds : List Decl}
    (h : List.Forall₂ (Expand.IsClone original) aliases ds)
    (hMem : d ∈ ds) :
    ∃ a ∈ aliases, Expand.IsClone original a d := by
  induction h with
  | nil => cases hMem
  | @cons a _ _ _ hIs _ ih =>
      rcases List.mem_cons.mp hMem with rfl | hLater
      · exact ⟨a, List.mem_cons_self, hIs⟩
      · rcases ih hLater with ⟨b, hAlias, hOther⟩
        exact ⟨b, List.mem_cons_of_mem a hAlias, hOther⟩

theorem not_hasFloating_of_mem_clones
    {s : Settings}
    {f : Source.File}
    {d : Decl}
    (h : d ∈ clones (expandFile s f).expansions) :
    ¬ HasFloating d.start := by
  rcases List.mem_flatMap.mp h with ⟨e, hMem, hClone⟩
  rcases exists_isClone_of_mem
      (expands_of_mem_expansions hMem).2.clones hClone with
    ⟨a, _, hIs⟩
  exact Source.Gap.not_hasFloating
    (lineFeed_notMem_start_of_isClone hIs)

------------------------------------------------------------
-- Companions
------------------------------------------------------------

/-
  An import declaration with a comment that a blank line
  separates from what follows it in the text.
-/
def FloatsAboveImport
    (path src : Bytes)
    (item : Source.Item) : Prop :=
  item.decl.isImport = true ∧
    ∃ tree d cs,
      (Source.parse path src).tree = some tree ∧
        d ∈ tree.decls ∧
        IsLed (Source.parse path src).lines
          tree.comments.flatten item d cs ∧
        HasBlank (Source.parse path src).lines d.pos cs

/- Its lines show whether a declaration has such a comment. -/
theorem hasFloating_start_iff
    {path src : Bytes}
    {f : Source.File}
    {item : Source.Item}
    (hParse : Source.File.parse path src = .ok f)
    (hItem : item ∈ f.items)
    (hImport : item.decl.isImport = true) :
    HasFloating item.decl.start ↔
      FloatsAboveImport path src item := by
  have hLines
      {tree : Source.Tree}
      {d : Source.TopDecl}
      {cs : List Source.Comment}
      (hTree : (Source.parse path src).tree = some tree)
      (hLed :
        IsLed (Source.parse path src).lines
          tree.comments.flatten item d cs) :
      HasFloating item.decl.start ↔
        HasBlank (Source.parse path src).lines d.pos cs := by
    rw [hLed.start]
    apply Source.Gap.hasFloating_startLines_iff
    intro c hMem
    exact Source.File.text_ne_of_mem_comments hTree
      (hLed.before c hMem).1
  constructor
  · intro hFloats
    rcases Source.File.exists_isLed_of_parse hParse hItem with
      ⟨tree, hTree, d, hDecl, cs, hLed⟩
    exact ⟨hImport, tree, d, cs, hTree, hDecl, hLed,
      (hLines hTree hLed).mp hFloats⟩
  · rintro ⟨_, tree, d, cs, hTree, _, hLed, hBlank⟩
    exact (hLines hTree hLed).mpr hBlank

/- A duplicate is written like what it is made of. -/
theorem map_written_of_isClone
    {original : Decl}
    {aliases : List Alias}
    {ds : List Decl}
    (h : List.Forall₂ (Expand.IsClone original) aliases ds) :
    ds.map Decl.written =
      aliases.map fun _ => original.written := by
  induction h with
  | nil => rfl
  | @cons a clone _ _ hIs _ ih =>
      -- renaming back, which restores the original, keeps it
      have hSame := congrArg Decl.written hIs.restores
      have hWritten : clone.written = original.written := hSame
      rw [List.map_cons, List.map_cons, ih, hWritten]

theorem map_written_clones
    (s : Settings)
    (f : Source.File) :
    (clones (expandFile s f).expansions).map Decl.written =
      (expandFile s f).expansions.flatMap fun e =>
        e.aliases.map fun _ => e.site.item.decl.written := by
  rw [clones, List.map_flatMap]
  apply List.flatMap_congr
  intro e hMem
  have hExpands := (expands_of_mem_expansions hMem).2
  rw [map_written_of_isClone hExpands.clones,
    hExpands.original]

/-
  A companion of a text has a floating comment above one of its
  declarations exactly if the text has one above an import
  declaration; above a duplicate there is none, wherever the
  comments of the text stand.

  Comments behind a declaration stay with it.  Each declaration
  of the companion is written like the import or the annotated
  declaration it comes from, and what is written goes on up to
  the end of the last comment that belongs to it.  Behind the
  last declaration of a text these are all comments.
-/
theorem companion_floats_iff_import_floats
    {path src : Bytes}
    {f : Source.File}
    (hParse : Source.File.parse path src = .ok f)
    (s : Settings) :
    (∀ d ∈ clones (expandFile s f).expansions,
        ¬ HasFloating d.start) ∧
      ((∃ d ∈ companionDecls (expandFile s f),
          HasFloating d.start) ↔
        ∃ item ∈ f.items, FloatsAboveImport path src item) ∧
      (companionDecls (expandFile s f)).map Decl.written =
        f.imports.map Decl.written ++
          ((expandFile s f).expansions.flatMap fun e =>
            e.aliases.map fun _ => e.site.item.decl.written) ∧
      ∀ item ∈ f.items,
        ∃ tree before d after,
          (Source.parse path src).tree = some tree ∧
            tree.decls = before ++ d :: after ∧
            IsTrailed src (Source.parse path src).lines
              tree.comments.flatten item d after := by
  have hClones :
      ∀ d ∈ clones (expandFile s f).expansions,
        ¬ HasFloating d.start :=
    fun _ => not_hasFloating_of_mem_clones
  refine ⟨hClones, ⟨?_, ?_⟩, ?_, ?_⟩
  · rintro ⟨d, hMem, hFloats⟩
    rcases List.mem_append.mp hMem with hImport | hClone
    · rcases List.mem_filter.mp hImport with ⟨hDecl, hImport⟩
      rcases List.mem_map.mp hDecl with ⟨item, hItem, rfl⟩
      exact ⟨item, hItem,
        (hasFloating_start_iff hParse hItem hImport).mp hFloats⟩
    · exact absurd hFloats (hClones d hClone)
  · rintro ⟨item, hItem, hFloats⟩
    refine ⟨item.decl, ?_,
      (hasFloating_start_iff hParse hItem hFloats.1).mpr hFloats⟩
    apply List.mem_append_left
    exact List.mem_filter.mpr
      ⟨List.mem_map_of_mem hItem, hFloats.1⟩
  · rw [companionDecls, List.map_append, map_written_clones]
    rfl
  · intro item hItem
    exact Source.File.exists_isTrailed_of_parse hParse hItem

/- A free-standing line behind the last declaration stays, too. -/
example :
    (Source.File.parse (utf8 "a.go")
        (utf8
          "package p\n\n// @alias(B)\nfunc F() \x7b\x7d\n\n//go:generate x\n")).map
        (fun f =>
          (run Settings.standard .info false [f]).files.map
            Output.content) =
      .ok
        [generatedLine ++
          utf8
            "\n\npackage p\n\nfunc B() \x7b\x7d\n\n//go:generate x\n"] := by
  decide +kernel

/- A free-standing line above an import declaration. -/
def generateText : Bytes :=
  utf8
    "package p\n\n//go:generate x\n\nimport \"os\"\n\n// @alias(G)\nfunc F() \x7b os.Exit(1) \x7d\n"

/- The companion of a file with that text. -/
def generateCompanion : Output :=
  { path := utf8 "a_alias.go"
    content :=
      generatedLine ++
        utf8
          "\n\npackage p\n\n//go:generate x\n\nimport \"os\"\n\nfunc G() \x7b os.Exit(1) \x7d\n" }

/- What a run makes of the text. -/
theorem exists_companion_of_generateText :
    ∃ f d,
      Source.File.parse (utf8 "a.go") generateText = .ok f ∧
        (run Settings.standard .info false [f]).files =
          [generateCompanion] ∧
        d ∈ companionDecls (expandFile Settings.standard f) ∧
        d.start = [utf8 "//go:generate x", [0x0a]] := by
  have hRun :
      (Source.File.parse (utf8 "a.go") generateText).map
          (fun f =>
            ((run Settings.standard .info false [f]).files,
              (companionDecls
                (expandFile Settings.standard f)).map
                Decl.start)) =
        .ok
          ([generateCompanion],
            [[utf8 "//go:generate x", [0x0a]], []]) := by
    decide +kernel
  rcases Source.File.exists_of_map_parse hRun with
    ⟨f, hParse, hSame⟩
  rcases Prod.mk.inj hSame with ⟨hFiles, hStarts⟩
  have hMem :
      [utf8 "//go:generate x", [0x0a]] ∈
        (companionDecls (expandFile Settings.standard f)).map
          Decl.start := by
    rw [hStarts]
    exact List.mem_cons_self
  rcases List.mem_map.mp hMem with ⟨d, hDecl, hStart⟩
  exact ⟨f, d, hParse, hFiles, hDecl, hStart⟩

/- The line is in the companion, in front of its imports. -/
theorem companion_keeps_generate_line :
    ∃ f d,
      Source.File.parse (utf8 "a.go") generateText = .ok f ∧
        (run Settings.standard .info false [f]).files =
          [generateCompanion] ∧
        d ∈ companionDecls (expandFile Settings.standard f) ∧
        HasFloating d.start := by
  rcases exists_companion_of_generateText with
    ⟨f, d, hParse, hFiles, hDecl, hStart⟩
  refine ⟨f, d, hParse, hFiles, hDecl, ?_⟩
  rw [hStart]
  exact ⟨[], _, [], by decide, rfl⟩

theorem generateText_floats_above_import :
    ∃ f,
      Source.File.parse (utf8 "a.go") generateText = .ok f ∧
        ∃ item ∈ f.items,
          FloatsAboveImport (utf8 "a.go") generateText item := by
  rcases exists_companion_of_generateText with
    ⟨f, d, hParse, _, hDecl, hStart⟩
  refine ⟨f, hParse, ?_⟩
  apply (companion_floats_iff_import_floats hParse _).2.1.mp
  refine ⟨d, hDecl, ?_⟩
  rw [hStart]
  exact ⟨[], _, [], by decide, rfl⟩

end Generate

end Namesake
