import Namesake.Proofs.Generate.Accounting
import Namesake.Proofs.Generate.Rendering

/-
  The declarations that the two kinds of output hold.  A file
  in place is a row of blocks, one for each declaration, and
  the companion holds the duplicates of these blocks.

  Main declarations:
    * `Generate.Block` and `Generate.IsBlock`
    * `Generate.Settles.exists_blocks`
    * `Generate.in_place_and_companion_agree`
-/

namespace Namesake

------------------------------------------------------------
-- Blocks
------------------------------------------------------------

/- A declaration without the directive of its comment. -/
def Source.Item.stripped
    (name : Bytes)
    (item : Source.Item) : Decl :=
  match Directive.find name item.doc with
  | .ok (some d) =>
      { item.decl with start := d.strip item.decl.start }
  | _ => item.decl

namespace Generate

open Directive

/- A printed declaration and the duplicates right behind it. -/
structure Block where
  head : Decl
  clones : List Decl

/- The declarations of a block, in order. -/
def Block.decls
    (b : Block) : List Decl :=
  b.head :: b.clones

/-
  The block of a declaration.  Without a directive it is the
  declaration alone, else the stripped declaration and one
  duplicate for each alias.
-/
inductive IsBlock
    (name : Bytes) : Source.Item → Block → Prop where
  | plain
      {item : Source.Item}
      (hFind : find name item.doc = .ok none) :
      IsBlock name item ⟨item.decl, []⟩
  | expanded
      {item : Source.Item}
      {d : Directive}
      {aliases : List Alias}
      {clones : List Decl}
      (hFind : find name item.doc = .ok (some d))
      (hAliases : d.aliases = .ok aliases)
      (hNonempty : aliases ≠ [])
      (hClones :
        List.Forall₂ (Expand.IsClone (item.stripped name))
          aliases clones) :
      IsBlock name item ⟨item.stripped name, clones⟩

theorem IsBlock.head_eq
    {name : Bytes}
    {item : Source.Item}
    {b : Block}
    (h : IsBlock name item b) :
    b.head = item.stripped name := by
  cases h with
  | plain hFind => simp [Source.Item.stripped, hFind]
  | expanded => rfl

------------------------------------------------------------
-- Looking Up Expansions
------------------------------------------------------------

/- Only expansions at an index or behind it matter from there on. -/
theorem interleave_cons_of_lt
    {e : Expansion}
    {index : Nat}
    (expansions : List Expansion)
    (decls : List Decl)
    (h : e.site.index < index) :
    interleave (e :: expansions) index decls =
      interleave expansions index decls := by
  induction decls generalizing index with
  | nil => rfl
  | cons d ds ih =>
      have hOther : (e.site.index == index) = false := by
        simpa using Nat.ne_of_lt h
      have hAt :
          expansionAt? (e :: expansions) index =
            expansionAt? expansions index := by
        simp [expansionAt?, hOther]
      simp only [interleave, hAt, ih (Nat.lt_succ_of_lt h)]

/- Nothing is expanded in front of the first declaration. -/
theorem Settles.expansionAt?_eq_none
    {s : Settings}
    {index : Nat}
    {items : List Source.Item}
    {expansions : List Expansion}
    {early late : List (Nat × Diagnostic)}
    (h : Settles s (index + 1) items expansions early late) :
    expansionAt? expansions index = none := by
  apply List.find?_eq_none.mpr
  intro e hMem
  have hBound :=
    List.le_snd_of_mem_zipIdx (h.expands hMem).1
  simp only at hBound
  simp only [beq_iff_eq]
  omega

/- Without errors, the declarations in place are blocks. -/
theorem Settles.exists_blocks
    {s : Settings}
    {index : Nat}
    {items : List Source.Item}
    {expansions : List Expansion}
    {early late : List (Nat × Diagnostic)}
    (h : Settles s index items expansions early late)
    (hEarly : early = [])
    (hLate : late = []) :
    ∃ blocks,
      List.Forall₂ (IsBlock s.directive) items blocks ∧
        interleave expansions index
            (items.map Source.Item.decl) =
          blocks.flatMap Block.decls ∧
        clones expansions = blocks.flatMap Block.clones := by
  induction h with
  | nil => exact ⟨[], List.Forall₂.nil, rfl, rfl⟩
  | @plain _ item _ _ _ _ hFind hRest ih =>
      rcases ih hEarly hLate with
        ⟨blocks, hBlocks, hDecls, hClones⟩
      refine ⟨⟨item.decl, []⟩ :: blocks,
        List.Forall₂.cons (IsBlock.plain hFind) hBlocks,
        ?_, ?_⟩
      · simp only [List.map_cons, interleave,
          hRest.expansionAt?_eq_none, hDecls,
          List.flatMap_cons]
        rfl
      · exact hClones
  | duplicate => cases hEarly
  | failed => cases hLate
  | @expanded items e expansions _ _ hExpands _ ih =>
      rcases ih hEarly hLate with
        ⟨blocks, hBlocks, hDecls, hClones⟩
      have hHead :
          e.site.item.stripped s.directive =
            e.result.original := by
        simp [Source.Item.stripped, hExpands.found,
          hExpands.original]
      have hBlock :
          IsBlock s.directive e.site.item
            ⟨e.result.original, e.result.clones⟩ := by
        have hOwn := hExpands.clones
        rw [← hHead] at hOwn ⊢
        exact IsBlock.expanded hExpands.found
          hExpands.aliases hExpands.nonempty hOwn
      have hAt :
          expansionAt? (e :: expansions) e.site.index =
            some e := by
        simp [expansionAt?]
      refine ⟨_ :: blocks,
        List.Forall₂.cons hBlock hBlocks, ?_, ?_⟩
      · simp only [List.map_cons, interleave, hAt,
          interleave_cons_of_lt expansions _
            (Nat.lt_succ_self e.site.index),
          hDecls, List.flatMap_cons]
        rfl
      · simp only [clones, List.flatMap_cons] at hClones ⊢
        rw [hClones]

------------------------------------------------------------
-- Agreement
------------------------------------------------------------

/-
  If a file has no errors, its declarations in place are
  blocks in file order.  Without the duplicates they are the
  stripped declarations of the file, and the duplicates are
  what the companion holds behind the imports.  These are the
  declarations of the two outputs: each of them is what is
  made of a draft of just these, whatever tidies the imports.
-/
theorem in_place_and_companion_agree
    [Imports.Tidier]
    {s : Settings}
    {file : Source.File}
    (hClean :
      (expandFile s file).diagnostics.hasErrors = false) :
    ∃ blocks,
      List.Forall₂ (IsBlock s.directive) file.items blocks ∧
        inPlaceDecls (expandFile s file) =
          blocks.flatMap Block.decls ∧
        blocks.map Block.head =
          file.items.map
            (Source.Item.stripped s.directive) ∧
        companionDecls (expandFile s file) =
          file.imports ++ blocks.flatMap Block.clones ∧
        (∀ o,
          renderInPlace (expandFile s file) = .ok o ↔
            o.path = file.path ∧
              ∃ text,
                Layout.relaxed
                    (draft file.preamble
                      (blocks.flatMap Block.decls)) =
                  .ok text ∧
                Layout.format text = .ok o.content) ∧
        ∀ o,
          renderCompanion s (expandFile s file) = .ok o ↔
            o.path =
                Settings.companionPath file.path s.suffix ∧
              ∃ body,
                Layout.relaxed
                    (draft (utf8 "package " ++ file.package)
                      (file.imports ++
                        blocks.flatMap Block.clones)) =
                  .ok body ∧
                Imports.Tidier.tidy o.path
                    (header file ++ body) =
                  .ok o.content := by
  have hFile : (expandFile s file).file = file :=
    rfl
  rcases settles_expandFile s file with
    ⟨early, late, hSettles, hErrors⟩
  rw [(Diagnostics.hasErrors_eq_false_iff _).mp hClean,
    eq_comm, List.map_eq_nil_iff,
    List.append_eq_nil_iff] at hErrors
  rcases hSettles.exists_blocks hErrors.1 hErrors.2 with
    ⟨blocks, hBlocks, hDecls, hClones⟩
  have hInPlace :
      inPlaceDecls (expandFile s file) =
        blocks.flatMap Block.decls :=
    hDecls
  have hCompanion :
      companionDecls (expandFile s file) =
        file.imports ++ blocks.flatMap Block.clones := by
    unfold companionDecls
    rw [hClones]
    rfl
  refine ⟨blocks, hBlocks, hInPlace, ?_, hCompanion, ?_, ?_⟩
  · have hHeads :
        List.Forall₂
          (fun b item =>
            b.head = Source.Item.stripped s.directive item)
          blocks file.items :=
      hBlocks.flip.imp fun _ _ => IsBlock.head_eq
    rw [← List.forall₂_eq_eq_eq, List.forall₂_map_left_iff,
      List.forall₂_map_right_iff]
    exact hHeads
  · intro o
    rw [renderInPlace_eq_ok_iff, hFile, hInPlace]
  · intro o
    rw [renderCompanion_eq_ok_iff, hFile, hCompanion]

/- Two annotated functions at the ends of a file. -/
def rowFile : Source.File :=
  { path := utf8 "a.go"
    header := []
    preamble := utf8 "package p"
    package := utf8 "p"
    generated := false
    items :=
      [("F", ["// @alias(A, B)"]), ("G", ["// G."]),
        ("H", ["// H.", "// @alias(deprecated(C))"])].map
        fun (name, lines) =>
          { decl :=
              { body := .func (utf8 name) none
                start := lines.map utf8 }
            doc := lines.map fun line => { text := utf8 line }
            locate := .unknown } }

theorem in_place_and_companion_agree_on_row :
    (expandFile Settings.standard
        rowFile).diagnostics.hasErrors = false ∧
      ∃ blocks : List Block,
        blocks.length = 3 ∧
          inPlaceDecls (expandFile Settings.standard rowFile) =
            blocks.flatMap Block.decls ∧
          companionDecls
              (expandFile Settings.standard rowFile) =
            blocks.flatMap Block.clones := by
  have hClean :
      (expandFile Settings.standard
        rowFile).diagnostics.hasErrors = false := by
    decide +kernel
  rcases in_place_and_companion_agree hClean with
    ⟨blocks, hBlocks, hInPlace, _, hCompanion, _⟩
  exact ⟨hClean, blocks, hBlocks.length_eq.symm, hInPlace,
    hCompanion⟩

end Generate

end Namesake
