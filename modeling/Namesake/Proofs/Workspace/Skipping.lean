import Namesake.Proofs.Generate.Rendering
import Namesake.Proofs.Scanner.Comments
import Namesake.Proofs.Source.Comments
import Namesake.Proofs.Workspace.Sources

/-
  Companions are no sources.  Every companion starts with a
  line that says that it is generated, reading it finds this
  line above the package clause, and so loading passes over
  companions wherever they stand among the paths.

  The text of a companion goes through a tidying of imports,
  which is a parameter here, with what is relied on.

  Main declarations:
    * `Source.Reads`
    * `Imports.KeepsHead`
    * `Generate.renderCompanionWith`
    * `Workspace.Interleaves`
    * `Workspace.companions_are_no_sources`
-/

namespace Namesake

------------------------------------------------------------
-- Texts That Can Be Read
------------------------------------------------------------

namespace Source

/- The text is that of a source file, without an error. -/
def Reads
    (src : Bytes)
    (tree : Tree) : Prop :=
  readTokens src (Scanner.tokens src) = (some tree, [])

/- Such a text has a tree and no errors at every path. -/
theorem parse_of_reads
    {src : Bytes}
    {tree : Tree}
    (h : Reads src tree)
    (path : Bytes) :
    (Source.parse path src).tree = some tree ∧
      (Source.parse path src).errors = [] := by
  have hTree : (readTokens src (Scanner.tokens src)).1 = _ :=
    congrArg Prod.fst h
  have hNone : (readTokens src (Scanner.tokens src)).2 = _ :=
    congrArg Prod.snd h
  refine ⟨hTree, ?_⟩
  simp only [Source.parse, parseTokens, hNone, List.map_nil,
    List.mergeSort_nil]

namespace File

/- So it is a file, and its comments say if it is generated. -/
theorem exists_of_reads
    {src : Bytes}
    {tree : Tree}
    (h : Reads src tree)
    (path : Bytes) :
    ∃ f,
      parse path src = .ok f ∧
        f.generated =
          isGenerated tree.comments.flatten tree.package := by
  rcases parse_of_reads h path with ⟨hTree, hErrors⟩
  refine
    ⟨ofTree path src (Source.parse path src).lines tree, ?_, rfl⟩
  simp only [parse, hTree, hErrors]

end File

end Source

------------------------------------------------------------
-- What Tidying Keeps
------------------------------------------------------------

/- A line comment of words, with no blanks at its end. -/
structure IsProse
    (line : Bytes) : Prop where
  opening : line.startsWith (utf8 "// ") = true
  word : (line.drop 3).head?.any (fun b => isLetter b.toNat) = true
  printable : Scanner.IsPrintable line
  closing : line.getLast? ≠ some 0x20

namespace Imports

open Source (Reads)

/-
  What is relied on: a text that is tidied is that of a source
  file before and after, of the same package, and a comment
  above the package clause stays above it, if it is a line of
  prose and an empty line follows.
-/
structure KeepsHead
    (tidy : Bytes → Bytes → Except Bytes Bytes) : Prop where
  package
    {path src content : Bytes}
    (h : tidy path src = .ok content) :
    ∃ tree tree',
      Reads src tree ∧ Reads content tree' ∧
        tree'.name.name = tree.name.name
  comments
    {path src content : Bytes}
    {tree tree' : Source.Tree}
    {c : Source.Comment}
    (h : tidy path src = .ok content)
    (hBefore : Reads src tree)
    (hBehind : Reads content tree')
    (hMem : c ∈ tree.comments.flatten)
    (hAbove : c.pos ≤ tree.package)
    (hProse : IsProse c.text)
    (hApart : c.text ++ utf8 "\n\n" <+: src.drop c.pos) :
    ∃ c' ∈ tree'.comments.flatten,
      c'.pos ≤ tree'.package ∧ c'.text = c.text

end Imports

------------------------------------------------------------
-- Companions
------------------------------------------------------------

namespace Generate

/- The companion of an expanded file, with a way of tidying. -/
def renderCompanionWith
    (tidy : Bytes → Bytes → Except Bytes Bytes)
    (s : Settings)
    (r : FileResult) : Except RenderError Output :=
  @renderCompanion ⟨tidy⟩ s r

/- What is tidied starts with the line and an empty line. -/
theorem exists_of_renderCompanionWith
    {tidy : Bytes → Bytes → Except Bytes Bytes}
    {s : Settings}
    {r : FileResult}
    {o : Output}
    (h : renderCompanionWith tidy s r = .ok o) :
    ∃ path rest,
      tidy path (generatedLine ++ utf8 "\n\n" ++ rest) =
        .ok o.content := by
  rcases (@renderCompanion_eq_ok_iff s r o ⟨tidy⟩).mp h with
    ⟨_, body, _, hTidy⟩
  rw [header, List.append_assoc] at hTidy
  exact ⟨_, _, hTidy⟩

theorem isProse_generatedLine :
    IsProse generatedLine := by
  constructor <;> decide +kernel

/-
  One comment with this line above the package clause is
  enough.
-/
theorem isGenerated_of_mem
    {comments : List Source.Comment}
    {c : Source.Comment}
    {package : Nat}
    (hMem : c ∈ comments)
    (hAbove : c.pos ≤ package)
    (hText : c.text = generatedLine) :
    Source.File.isGenerated comments package = true := by
  have hLine :
      generatedLine.lines.any Source.File.isGeneratedLine =
        true := by
    decide +kernel
  refine List.any_eq_true.mpr ⟨c, hMem, ?_⟩
  simp [hAbove, hText, hLine]

/- Whatever follows it, the line is a comment of the text. -/
theorem generatedLine_mem_comments
    {rest : Bytes}
    {tree : Source.Tree}
    (h :
      Source.Reads (generatedLine ++ utf8 "\n\n" ++ rest) tree) :
    ⟨0, generatedLine⟩ ∈ tree.comments.flatten := by
  have hLine :
      generatedLine = 0x2f :: 0x2f :: generatedLine.drop 2 := by
    decide +kernel
  have hPrintable : Scanner.IsPrintable (generatedLine.drop 2) :=
    fun b hMem =>
      isProse_generatedLine.printable b (List.mem_of_mem_drop hMem)
  rcases Scanner.tokens_of_lineComment (0x0a :: rest)
      hPrintable with
    ⟨t, ts, hTokens, hToken⟩
  rw [← hLine] at hTokens hToken
  have hSrc :
      generatedLine ++ utf8 "\n\n" ++ rest =
        generatedLine ++ 0x0a :: 0x0a :: rest := by
    rw [List.append_assoc]
    rfl
  rw [hSrc, Source.Reads, hTokens] at h
  have hMem := Source.mem_comments_of_readTokens
    (by rw [hToken]) (congrArg Prod.fst h)
  rwa [hToken] at hMem

/- What is rendered can be read, and says it is generated. -/
theorem generated_of_renderCompanionWith
    {tidy : Bytes → Bytes → Except Bytes Bytes}
    (hTidy : Imports.KeepsHead tidy)
    {s : Settings}
    {r : FileResult}
    {o : Output}
    (h : renderCompanionWith tidy s r = .ok o)
    (path : Bytes) :
    ∃ f,
      Source.File.parse path o.content = .ok f ∧
        f.generated = true := by
  rcases exists_of_renderCompanionWith h with
    ⟨place, rest, hContent⟩
  rcases hTidy.package hContent with
    ⟨tree, tree', hBefore, hBehind, _⟩
  rcases hTidy.comments hContent hBefore hBehind
      (generatedLine_mem_comments hBefore) (Nat.zero_le _)
      isProse_generatedLine ⟨rest, rfl⟩ with
    ⟨c, hMem, hAbove, hText⟩
  rcases Source.File.exists_of_reads hBehind path with
    ⟨f, hParse, hGenerated⟩
  exact ⟨f, hParse,
    hGenerated.trans (isGenerated_of_mem hMem hAbove hText)⟩

end Generate

------------------------------------------------------------
-- Loading
------------------------------------------------------------

namespace Workspace

/- The third list mixes the other two, each in its order. -/
inductive Interleaves {α : Type} :
    List α → List α → List α → Prop where
  | nil : Interleaves [] [] []
  | left
      {x : α}
      {xs ys zs : List α}
      (h : Interleaves xs ys zs) :
      Interleaves (x :: xs) ys (x :: zs)
  | right
      {y : α}
      {xs ys zs : List α}
      (h : Interleaves xs ys zs) :
      Interleaves xs (y :: ys) (y :: zs)

/- The file at the path says that it is generated. -/
def IsGeneratedAt
    (w : Workspace)
    (path : Bytes) : Prop :=
  ∃ f, loadFile path w = .ok f w ∧ f.generated = true

/- The files that count. -/
def sources
    (files : List Source.File) : List Source.File :=
  files.filter fun f => !f.generated

/- Two ways of reading end alike, up to generated files. -/
inductive SameSources
    (w : Workspace)
    (p q : Session (List Source.File)) : Prop where
  | ok
      {files files' : List Source.File}
      (hFirst : p w = .ok files w)
      (hSecond : q w = .ok files' w)
      (hSame : sources files = sources files')
  | error
      {e : Error}
      (hFirst : p w = .error e w)
      (hSecond : q w = .error e w)

/- Loading one file does not change the workspace. -/
theorem loadFile_cases
    (path : Bytes)
    (w : Workspace) :
    (∃ f, loadFile path w = .ok f w) ∨
      ∃ e, loadFile path w = .error e w := by
  have hKept : id (after (loadFile path) w) = id w :=
    keeps_loadFile path w
  cases hLoad : loadFile path w with
  | ok f w' =>
      rw [after_of_ok hLoad] at hKept
      exact .inl ⟨f, by rw [show w' = w from hKept]⟩
  | error e w' =>
      rw [after_of_error hLoad] at hKept
      exact .inr ⟨e, by rw [show w' = w from hKept]⟩

/- A file that loads comes before what the others give. -/
theorem parseFiles_of_ok
    {path : Bytes}
    {paths : List Bytes}
    {w : Workspace}
    {f : Source.File}
    {files : List Source.File}
    (hFile : loadFile path w = .ok f w)
    (hFiles : parseFiles paths w = .ok files w) :
    parseFiles (path :: paths) w = .ok (f :: files) w := by
  rw [parseFiles, bind_of_ok _ hFile, bind_of_ok _ hFiles]
  rfl

theorem parseFiles_of_later_error
    {path : Bytes}
    {paths : List Bytes}
    {w : Workspace}
    {f : Source.File}
    {e : Error}
    (hFile : loadFile path w = .ok f w)
    (hFiles : parseFiles paths w = .error e w) :
    parseFiles (path :: paths) w = .error e w := by
  rw [parseFiles, bind_of_ok _ hFile, bind_of_error _ hFiles]

/-
  By induction on the mixed list: a source goes to both ways
  of reading, a generated file to one of them.
-/
theorem sameSources_of_interleaves
    {w : Workspace}
    {xs ys zs : List Bytes}
    (h : Interleaves xs ys zs)
    (hGenerated : ∀ y ∈ ys, IsGeneratedAt w y) :
    SameSources w (parseFiles zs) (parseFiles xs) := by
  induction h with
  | nil => exact .ok rfl rfl rfl
  | @left x xs ys zs _ ih =>
      rcases loadFile_cases x w with ⟨f, hFile⟩ | ⟨e, hFile⟩
      · cases ih hGenerated with
        | ok hFirst hSecond hSame =>
            refine .ok (parseFiles_of_ok hFile hFirst)
              (parseFiles_of_ok hFile hSecond) ?_
            simp only [sources, List.filter_cons] at hSame ⊢
            rw [hSame]
        | error hFirst hSecond =>
            exact .error (parseFiles_of_later_error hFile hFirst)
              (parseFiles_of_later_error hFile hSecond)
      · exact .error (bind_of_error _ hFile)
          (bind_of_error _ hFile)
  | @right y xs ys zs _ ih =>
      rcases List.forall_mem_cons.mp hGenerated with
        ⟨⟨f, hFile, hSays⟩, hLater⟩
      cases ih hLater with
      | ok hFirst hSecond hSame =>
          refine .ok (parseFiles_of_ok hFile hFirst) hSecond ?_
          rw [← hSame]
          simp [sources, hSays]
      | error hFirst hSecond =>
          exact .error (parseFiles_of_later_error hFile hFirst)
            hSecond

/-
  What counts is the same, also if there is nothing that
  counts.
-/
theorem loadFiles_of_interleaves
    {w : Workspace}
    {xs ys zs : List Bytes}
    (h : Interleaves xs ys zs)
    (hGenerated : ∀ y ∈ ys, IsGeneratedAt w y) :
    loadFiles zs w = loadFiles xs w := by
  cases sameSources_of_interleaves h hGenerated with
  | ok hFirst hSecond hSame =>
      rw [loadFiles, loadFiles, bind_of_ok _ hFirst,
        bind_of_ok _ hSecond]
      unfold sources at hSame
      rw [hSame]
  | error hFirst hSecond =>
      rw [loadFiles, loadFiles, bind_of_error _ hFirst,
        bind_of_error _ hSecond]

/- A companion is stored at the path. -/
def IsCompanionAt
    (tidy : Bytes → Bytes → Except Bytes Bytes)
    (w : Workspace)
    (path : Bytes) : Prop :=
  ∃ s r o,
    Generate.renderCompanionWith tidy s r = .ok o ∧
      w.tree.read w.here path = .ok o.content

/- A companion says that it is generated wherever it is stored. -/
theorem isGeneratedAt_of_isCompanionAt
    {tidy : Bytes → Bytes → Except Bytes Bytes}
    (hTidy : Imports.KeepsHead tidy)
    {w : Workspace}
    {path : Bytes}
    (h : IsCompanionAt tidy w path) :
    IsGeneratedAt w path := by
  rcases h with ⟨s, r, o, hRender, hRead⟩
  rcases Generate.generated_of_renderCompanionWith hTidy hRender
      path with
    ⟨f, hParse, hSays⟩
  refine ⟨f, ?_, hSays⟩
  have hContent :
      readFile path w = .ok (.ok o.content) w := by
    rw [← hRead]
    rfl
  rw [loadFile, bind_of_ok _ hContent]
  simp only [hParse]
  rfl

/-
  Reading a companion finds that it is generated.  So companions
  that stand anywhere among the paths of sources change nothing
  of what is loaded, nor why loading fails.  The companions that
  a run writes are those of the tool that it is given.
-/
theorem companions_are_no_sources
    {tidy : Bytes → Bytes → Except Bytes Bytes}
    (hTidy : Imports.KeepsHead tidy) :
    (∀ [Imports.Tidier],
        Generate.renderCompanion =
          Generate.renderCompanionWith Imports.Tidier.tidy) ∧
      (∀ s r o path,
        Generate.renderCompanionWith tidy s r = .ok o →
          ∃ f,
            Source.File.parse path o.content = .ok f ∧
              f.generated = true) ∧
      ∀ w files companions paths,
        Interleaves files companions paths →
          (∀ path ∈ companions, IsCompanionAt tidy w path) →
            loadFiles paths w = loadFiles files w := by
  refine ⟨fun {_} => rfl, ?_, ?_⟩
  · intro s r o path hRender
    exact Generate.generated_of_renderCompanionWith hTidy hRender
      path
  · intro w files companions paths hPaths hAll
    exact loadFiles_of_interleaves hPaths fun path hMem =>
      isGeneratedAt_of_isCompanionAt hTidy (hAll path hMem)

/- A way of tidying that refuses or changes nothing. -/
def keepReadable
    (_ src : Bytes) : Except Bytes Bytes :=
  match Source.readTokens src (Scanner.tokens src) with
  | (some _, []) => .ok src
  | _ => .error (utf8 "not a source file")

/- What is not refused is left as it is, and it can be read. -/
theorem keepReadable_cases
    {path src content : Bytes}
    (h : keepReadable path src = .ok content) :
    content = src ∧ ∃ tree, Source.Reads src tree := by
  unfold keepReadable at h
  split at h
  · rename_i tree hReads
    cases h
    exact ⟨rfl, tree, hReads⟩
  · cases h

/- Tidying that changes nothing can be relied on. -/
theorem keepsHead_keepReadable :
    Imports.KeepsHead keepReadable where
  package h := by
    rcases keepReadable_cases h with ⟨rfl, tree, hReads⟩
    exact ⟨tree, tree, hReads, hReads, rfl⟩
  comments h hBefore hBehind hMem hAbove _ _ := by
    rcases keepReadable_cases h with ⟨rfl, _, _⟩
    rw [Source.Reads, hBefore] at hBehind
    cases hBehind
    exact ⟨_, hMem, hAbove, rfl⟩

open Generate (annotatedPath annotatedText neighbourPath)

/- The companion of the file with one directive. -/
def annotatedCompanion : Bytes :=
  Generate.generatedLine ++
    utf8 "\n\npackage p\n\nfunc A() \x7b\x7d\n"

/- The file with one directive beside its companion. -/
def annotatedWorkspace : Workspace :=
  { tree :=
      { files :=
          [([annotatedPath], annotatedText),
            ([neighbourPath], annotatedCompanion)] } }

/- Both ways of tidying give this companion. -/
theorem exists_annotatedCompanion :
    ∃ f,
      Source.File.parse annotatedPath annotatedText = .ok f ∧
        let r := Generate.expandFile Settings.standard f
        Generate.renderCompanion Settings.standard r =
            .ok ⟨neighbourPath, annotatedCompanion⟩ ∧
          Generate.renderCompanionWith keepReadable
              Settings.standard r =
            .ok ⟨neighbourPath, annotatedCompanion⟩ := by
  have hRender :
      ((Source.File.parse annotatedPath annotatedText).map
          fun f =>
            let r := Generate.expandFile Settings.standard f
            (Generate.renderCompanion Settings.standard r,
              Generate.renderCompanionWith keepReadable
                Settings.standard r)) =
        .ok
          (.ok ⟨neighbourPath, annotatedCompanion⟩,
            .ok ⟨neighbourPath, annotatedCompanion⟩) := by
    decide +kernel
  rcases Source.File.exists_of_map_parse hRender with
    ⟨f, hParse, hSame⟩
  exact ⟨f, hParse, Prod.mk.inj hSame⟩

/- Behind its companion, the file with one directive is loaded. -/
theorem annotatedCompanion_is_no_source :
    Imports.KeepsHead keepReadable ∧
      (∃ f,
        Source.File.parse neighbourPath annotatedCompanion =
            .ok f ∧
          f.generated = true) ∧
      IsCompanionAt keepReadable annotatedWorkspace
        neighbourPath ∧
      ∃ files w,
        loadFiles [neighbourPath, annotatedPath]
            annotatedWorkspace =
          .ok files w ∧
        files.map Source.File.path = [annotatedPath] := by
  have hTidy := keepsHead_keepReadable
  rcases companions_are_no_sources hTidy with
    ⟨_, hSays, hSkips⟩
  rcases exists_annotatedCompanion with ⟨f, _, _, hRender⟩
  have hStored :
      annotatedWorkspace.tree.read annotatedWorkspace.here
          neighbourPath =
        .ok annotatedCompanion := by
    decide +kernel
  have hCompanion :
      IsCompanionAt keepReadable annotatedWorkspace
        neighbourPath :=
    ⟨_, _, _, hRender, hStored⟩
  have hPaths :
      (match loadFiles [annotatedPath] annotatedWorkspace with
        | .ok files _ => files.map Source.File.path
        | .error _ _ => []) =
        [annotatedPath] := by
    decide +kernel
  have hSame :=
    hSkips annotatedWorkspace [annotatedPath] [neighbourPath]
      [neighbourPath, annotatedPath] (.right (.left .nil))
      (List.forall_mem_singleton.mpr hCompanion)
  refine ⟨hTidy, hSays _ _ _ _ hRender, hCompanion, ?_⟩
  cases hLoad :
      loadFiles [annotatedPath] annotatedWorkspace with
  | error e w =>
      rw [hLoad] at hPaths
      cases hPaths
  | ok files w =>
      rw [hLoad] at hPaths
      exact ⟨files, w, hSame.trans hLoad, hPaths⟩

end Workspace

end Namesake
