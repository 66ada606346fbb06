import Namesake.Generate.Run
import Namesake.Proofs.Directive.Unplaced
import Namesake.Proofs.Generate.Rendering
import Namesake.Proofs.Source.Docs
import Namesake.Proofs.Source.Lines

/-
  The name under which a text is read shows in positions and
  in paths only.  A file without its name and its positions is
  the same under every name, and what is generated from it has
  the same content.

  Main declarations:
    * `Source.File.unplaced`
    * `Source.File.unplaced_eq_of_parse`
    * `Generate.expansions_unplaced`
    * `Generate.content_eq_of_unplaced_eq`
-/

namespace Namesake

------------------------------------------------------------
-- Files
------------------------------------------------------------

namespace Source

/- A declaration that stands nowhere. -/
def Item.unplaced
    (item : Item) : Item :=
  { decl := item.decl
    doc := DocLine.unplaced (item.doc.map DocLine.text)
    locate := .unknown }

/- A file without its name and its positions. -/
def File.unplaced
    (f : File) : File :=
  { f with path := [], items := f.items.map Item.unplaced }

/- A site that stands nowhere. -/
def Site.unplaced
    (site : Site) : Site :=
  ⟨site.index, site.item.unplaced, site.directive.unplaced⟩

namespace Gap

theorem splitNear_bare
    (lines : Lines)
    (limit stop : Nat)
    (comments : List Comment) :
    splitNear lines.bare limit stop comments =
      splitNear lines limit stop comments := by
  induction comments generalizing stop with
  | nil => rfl
  | cons c cs ih =>
      simp only [splitNear, ih]
      rfl

theorem startLines_bare
    (lines : Lines)
    (next : Nat)
    (comments : List Comment) :
    startLines lines.bare next comments =
      startLines lines next comments := by
  fun_induction startLines lines next comments with
  | case1 => rfl
  | case2 c => rfl
  | case3 c d cs ih =>
      rw [startLines, ih]
      rfl

/- Where a comment belongs is a matter of lines, not of marks. -/
theorem between_bare
    (lines : Lines)
    (comments : List Comment)
    (stop : Nat)
    (next : Option Nat) :
    between lines.bare comments stop next =
      between lines comments stop next := by
  cases next with
  | none => rfl
  | some next =>
      simp only [between, splitNear_bare, startLines_bare]
      rfl

end Gap

namespace File

/- The lines of a doc comment keep their texts. -/
theorem docLines_unplaced
    (lines : Lines)
    (doc : Option CommentGroup) :
    (docLines lines doc).map DocLine.text =
      (doc.getD []).map Comment.text := by
  simp [docLines]

/- So a name and marks change nothing but positions. -/
theorem itemsFrom_unplaced
    (src : Bytes)
    (lines : Lines)
    (comments : List Comment)
    (gap : Gap)
    (decls : List TopDecl) :
    (itemsFrom src lines comments gap decls).map Item.unplaced =
      (itemsFrom src lines.bare comments gap decls).map
        Item.unplaced := by
  induction decls generalizing gap with
  | nil => rfl
  | cons d decls ih =>
      simp only [itemsFrom, List.map_cons, ih,
        Gap.between_bare, Item.unplaced, docLines_unplaced]

/- A file without its name has its lines alone. -/
theorem ofTree_unplaced
    (path src : Bytes)
    (lines : Lines)
    (tree : Tree) :
    (ofTree path src lines tree).unplaced =
      (ofTree [] src lines.bare tree).unplaced := by
  simp only [ofTree, unplaced, Gap.between_bare,
    Gap.startLines_bare, itemsFrom_unplaced src lines]

/- Under every name a text makes the same file. -/
theorem unplaced_eq_of_parse
    {path other src : Bytes}
    {f g : File}
    (hFile : parse path src = .ok f)
    (hOther : parse other src = .ok g) :
    f.unplaced = g.unplaced := by
  have hParse
      {path : Bytes}
      {f : File}
      (h : parse path src = .ok f) :
      ∃ tree,
        (readTokens src (Scanner.tokens src)).1 = some tree ∧
          f.unplaced =
            (ofTree [] src
              (Lines.ofText path src
                (Scanner.tokens src)).bare tree).unplaced := by
    rcases exists_tree_of_parse h with ⟨tree, hTree, rfl⟩
    exact ⟨tree, hTree, ofTree_unplaced _ _ _ _⟩
  rcases hParse hFile with ⟨tree, hTree, hText⟩
  rcases hParse hOther with ⟨tree', hTree', hText'⟩
  rw [hTree] at hTree'
  cases hTree'
  rw [hText, hText', Lines.bare_ofText path other]

/- The sites of a file are the same wherever it stands. -/
theorem sitesFrom_unplaced
    (name : Bytes)
    (index : Nat)
    (items : List Item) :
    (sitesFrom name index (items.map Item.unplaced)).1 =
      (sitesFrom name index items).1.map Site.unplaced := by
  induction items generalizing index with
  | nil => rfl
  | cons item items ih =>
      have hSites := ih (index + 1)
      have hDoc :
          item.unplaced.doc =
            DocLine.unplaced (item.doc.map DocLine.text) :=
        rfl
      simp only [List.map_cons, sitesFrom, hDoc]
      rcases cases_of_toOption_eq_map
          (Directive.find_unplaced name item.doc) with
        ⟨e, e', hPlaced, hBare⟩ | ⟨d, hPlaced, hBare⟩
      · rw [hPlaced, hBare]
        exact hSites
      · rw [hPlaced, hBare]
        cases d with
        | none => exact hSites
        | some d =>
            exact congrArg
              (Site.unplaced ⟨index, item, d⟩ :: ·) hSites

end File

end Source

------------------------------------------------------------
-- Expansion
------------------------------------------------------------

/- Where a declaration stands only matters for its report. -/
theorem Decl.classify_toOption
    (d : Decl)
    (locate other : Locator) :
    (d.classify locate).toOption =
      (d.classify other).toOption := by
  unfold classify
  split
  · rfl
  · rfl
  · split <;> rfl
  · split <;> rfl
  · rfl

theorem Expand.duplicate_unplaced
    (original : Decl)
    (a : Alias) :
    duplicate original a.unplaced = duplicate original a :=
  rfl

/- A declaration is expanded in the same way wherever it stands. -/
theorem Expand.expand_unplaced
    (decl : Decl)
    (aliases : List Alias)
    (d : Directive)
    (locate : Decl.Locator) :
    (expand
        ⟨decl, aliases.map Alias.unplaced, some d.unplaced,
          .unknown⟩).toOption =
      (expand ⟨decl, aliases, some d, locate⟩).toOption := by
  have hClean :
      clean (some d.unplaced) decl = clean (some d) decl :=
    rfl
  have hKind := Decl.classify_toOption decl .unknown locate
  unfold expand
  simp only [hClean, List.isEmpty_map, List.map_map,
    Function.comp_def, duplicate_unplaced]
  split
  · rfl
  · cases hBare : decl.classify .unknown with
    | error e =>
        cases hPlaced : decl.classify locate with
        | error e' => rfl
        | ok kind =>
            rw [hBare, hPlaced] at hKind
            cases hKind
    | ok kind =>
        cases hPlaced : decl.classify locate with
        | error e' =>
            rw [hBare, hPlaced] at hKind
            cases hKind
        | ok kind' =>
            rw [hBare, hPlaced] at hKind
            cases hKind
            rfl

namespace Generate

/- An expansion that stands nowhere. -/
def Expansion.unplaced
    (e : Expansion) : Expansion :=
  ⟨e.site.unplaced, e.aliases.map Alias.unplaced, e.result⟩

/- A site is expanded or not, wherever it stands. -/
theorem expandSite_unplaced
    (s : Settings)
    (site : Source.Site) :
    (expandSite s site.unplaced).1 =
      (expandSite s site).1.map Expansion.unplaced := by
  have hDirective :
      site.unplaced.directive = site.directive.unplaced :=
    rfl
  have hDecl : site.unplaced.item.decl = site.item.decl :=
    rfl
  have hLocate : site.unplaced.item.locate = .unknown :=
    rfl
  unfold expandSite
  rw [hDirective, hDecl, hLocate]
  rcases cases_of_toOption_eq_map
      (Directive.aliases_unplaced site.directive) with
    ⟨e, e', hPlaced, hBare⟩ | ⟨aliases, hPlaced, hBare⟩
  · rw [hPlaced, hBare]
    rfl
  · have hExpand :=
      (Expand.expand_unplaced site.item.decl aliases
        site.directive site.item.locate).trans
        (congrFun Option.map_id _).symm
    rw [hPlaced, hBare]
    simp only
    rcases cases_of_toOption_eq_map hExpand with
      ⟨e, e', hPlaced, hBare⟩ | ⟨result, hPlaced, hBare⟩
    · rw [hPlaced, hBare]
      rfl
    · rw [hPlaced, hBare]
      rfl

/- And all sites are, by induction on their list. -/
theorem expandSites_unplaced
    (s : Settings)
    (sites : List Source.Site) :
    (expandSites s (sites.map Source.Site.unplaced)).1 =
      (expandSites s sites).1.map Expansion.unplaced := by
  induction sites with
  | nil => rfl
  | cons site sites ih =>
      simp only [List.map_cons, expandSites,
        expandSite_unplaced s site, ih, List.map_append]
      cases (expandSite s site).1 <;> rfl

/- A file is expanded in the same way wherever it stands. -/
theorem expansions_unplaced
    (s : Settings)
    (file : Source.File) :
    (expandFile s file.unplaced).expansions =
      (expandFile s file).expansions.map
        Expansion.unplaced := by
  have hSites :
      (file.unplaced.sites s.directive).1 =
        (file.sites s.directive).1.map Source.Site.unplaced :=
    Source.File.sitesFrom_unplaced s.directive 0 file.items
  simp only [expandFile, hSites]
  exact expandSites_unplaced s _

------------------------------------------------------------
-- Contents
------------------------------------------------------------

theorem decls_unplaced
    (file : Source.File) :
    file.unplaced.decls = file.decls := by
  simp [Source.File.decls, Source.File.unplaced,
    Source.Item.unplaced]

/- Clones come from results, which hold no positions. -/
theorem clones_unplaced
    (expansions : List Expansion) :
    clones (expansions.map Expansion.unplaced) =
      clones expansions := by
  simp [clones, List.flatMap_map, Expansion.unplaced]

theorem expansionAt?_unplaced
    (expansions : List Expansion)
    (index : Nat) :
    expansionAt? (expansions.map Expansion.unplaced) index =
      (expansionAt? expansions index).map
        Expansion.unplaced := by
  simp only [expansionAt?, List.find?_map]
  rfl

theorem interleave_unplaced
    (expansions : List Expansion)
    (index : Nat)
    (decls : List Decl) :
    interleave (expansions.map Expansion.unplaced) index decls =
      interleave expansions index decls := by
  induction decls generalizing index with
  | nil => rfl
  | cons d decls ih =>
      simp only [interleave, expansionAt?_unplaced, ih]
      cases expansionAt? expansions index <;> rfl

/- The name of a text counts only if it cannot be read. -/
theorem parse_toOption
    (name other src : Bytes) :
    (Layout.parse name src).toOption =
      (Layout.parse other src).toOption := by
  have hSort
      (name : Bytes)
      (complaints : List Source.Parser.Complaint) :
      ((complaints.map fun c =>
          (⟨(Source.Lines.ofText name src
            (Scanner.tokens src)).position c.offset,
            c.message⟩ : Source.ParseError)).mergeSort
          Source.ParseError.le = []) ↔
        complaints = [] := by
    rw [← List.length_eq_zero_iff, List.length_mergeSort,
      List.length_map, List.length_eq_zero_iff]
  simp only [Layout.parse, Source.parse, Source.parseTokens,
    Source.Lines.bare_ofText name other]
  cases (Source.readTokens src (Scanner.tokens src)).1 with
  | none => rfl
  | some tree =>
      by_cases hNone :
          (Source.readTokens src (Scanner.tokens src)).2 = []
      · rw [(hSort name _).mpr hNone, (hSort other _).mpr hNone]
      · split
        · rename_i hErrors
          exact absurd ((hSort name _).mp hErrors) hNone
        · split
          · rename_i hErrors
            exact absurd ((hSort other _).mp hErrors) hNone
          · rfl

/- The name of a file is in the error of tidying only. -/
theorem tidy_toOption
    (name other src : Bytes) :
    (Imports.tidy name src).toOption =
      (Imports.tidy other src).toOption := by
  have hParse :=
    (parse_toOption other name src).trans
      (congrFun Option.map_id _).symm
  unfold Imports.tidy
  rcases cases_of_toOption_eq_map hParse with
    ⟨e, e', hName, hOther⟩ | ⟨p, hName, hOther⟩
  · rw [hName, hOther]
    rfl
  · rw [hName, hOther]
    rfl

/- The declarations of both kinds of output do not tell it. -/
theorem companionDecls_unplaced
    (s : Settings)
    (file : Source.File) :
    companionDecls (expandFile s file.unplaced) =
      companionDecls (expandFile s file) := by
  unfold companionDecls
  rw [expansions_unplaced s file, clones_unplaced]
  simp only [expandFile, Source.File.imports, decls_unplaced]

/- What is printed in place does not tell where it was read. -/
theorem inPlaceDecls_unplaced
    (s : Settings)
    (file : Source.File) :
    inPlaceDecls (expandFile s file.unplaced) =
      inPlaceDecls (expandFile s file) := by
  unfold inPlaceDecls
  rw [expansions_unplaced s file, interleave_unplaced]
  simp only [expandFile, decls_unplaced]

/- A file shares what stands nowhere with its copies. -/
theorem file_eq_of_unplaced_eq
    {f g : Source.File}
    (h : f.unplaced = g.unplaced) :
    f.header = g.header ∧ f.package = g.package ∧
      f.preamble = g.preamble := by
  simp only [Source.File.unplaced, Source.File.mk.injEq] at h
  exact ⟨h.2.1, h.2.2.2.1, h.2.2.1⟩

/-
  The content of an output does not tell where its file stood.
  A companion is tidied under its own path, so the tool has to
  make the same of both paths.
-/
theorem content_eq_of_unplaced_eq
    [Imports.Tidier]
    {s : Settings}
    {f g : Source.File}
    {o o' : Output}
    (hSame : f.unplaced = g.unplaced)
    (hTidy :
      ∀ src,
        (Imports.Tidier.tidy o.path src).toOption =
          (Imports.Tidier.tidy o'.path src).toOption)
    (hOutput : render s (expandFile s f) = .ok o)
    (hOther : render s (expandFile s g) = .ok o') :
    o.content = o'.content := by
  have hFile (file : Source.File) :
      (expandFile s file).file = file :=
    rfl
  rcases file_eq_of_unplaced_eq hSame with
    ⟨hHeader, hPackage, hPreamble⟩
  unfold render at hOutput hOther
  split at hOutput
  · rename_i hMode
    have hDecls :
        inPlaceDecls (expandFile s f) =
          inPlaceDecls (expandFile s g) := by
      rw [← inPlaceDecls_unplaced s f, hSame,
        inPlaceDecls_unplaced s g]
    rw [if_pos hMode] at hOther
    rcases renderInPlace_eq_ok_iff.mp hOutput with
      ⟨_, text, hText, hFormat⟩
    rcases renderInPlace_eq_ok_iff.mp hOther with
      ⟨_, text', hText', hFormat'⟩
    rw [hDecls, hFile, hPreamble] at hText
    rw [hFile, hText] at hText'
    cases hText'
    rw [hFormat] at hFormat'
    exact Except.ok.inj hFormat'
  · rename_i hMode
    have hDecls :
        companionDecls (expandFile s f) =
          companionDecls (expandFile s g) := by
      rw [← companionDecls_unplaced s f, hSame,
        companionDecls_unplaced s g]
    rw [if_neg hMode] at hOther
    rcases renderCompanion_eq_ok_iff.mp hOutput with
      ⟨_, body, hBody, hContent⟩
    rcases renderCompanion_eq_ok_iff.mp hOther with
      ⟨_, body', hBody', hContent'⟩
    rw [hDecls, hFile, hPackage] at hBody
    rw [hFile, hBody] at hBody'
    cases hBody'
    have hBoth := hTidy (header g ++ body)
    have hHeaders : header f = header g := by
      simp only [header, hHeader]
    rw [hFile, hHeaders] at hContent
    rw [hFile] at hContent'
    rw [hContent, hContent'] at hBoth
    exact Option.some.inj hBoth

end Generate

end Namesake
