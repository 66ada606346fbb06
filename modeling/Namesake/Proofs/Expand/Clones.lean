import Mathlib.Data.List.DropRight
import Mathlib.Data.List.Forall2
import Namesake.Expand
import Namesake.Proofs.Decl.Renaming

/-
  What an expansion consists of: the declaration without its
  directive, followed by one duplicate for each alias that
  differs from it in the identifying name, the comment lines
  and the space in front alone.

  Main declarations:
    * `Expand.IsClone`
    * `Expand.IsExpansion`
    * `Expand.isClone_duplicate`
    * `Expand.expand_yields_clones`
-/

namespace Namesake

namespace Expand

------------------------------------------------------------
-- Doc Comments
------------------------------------------------------------

theorem docComment_isSuffix
    (start : List Bytes) :
    docComment start <:+ start :=
  List.rtakeWhile_suffix _ start

/- No line feed stands in a doc comment. -/
theorem lineFeed_notMem_docComment
    (start : List Bytes) :
    [0x0a] ∉ docComment start := by
  intro hMem
  have hNot := List.mem_rtakeWhile_imp hMem
  simp at hNot

/- Lines without a line feed behind others are part of it. -/
theorem docComment_append
    (front : List Bytes)
    {rest : List Bytes}
    (hRest : [0x0a] ∉ rest) :
    docComment (front ++ rest) = docComment front ++ rest := by
  have hKept :
      ∀ line ∈ rest.reverse, decide (line ≠ [0x0a]) = true := by
    intro line hMem
    refine decide_eq_true ?_
    rintro rfl
    exact hRest (List.mem_reverse.mp hMem)
  unfold docComment
  rw [List.reverse_append, List.takeWhile_append_of_pos hKept,
    List.reverse_append, List.reverse_reverse]

/- Nothing in front of a line feed is part of it. -/
theorem docComment_append_lineFeed
    (front rest : List Bytes) :
    docComment (front ++ [0x0a] :: rest) = docComment rest := by
  unfold docComment
  rw [List.reverse_append, List.reverse_cons, List.append_assoc,
    List.takeWhile_append]
  split
  · rename_i hAll
    have hKept :=
      (List.takeWhile_prefix _).eq_of_length hAll
    rw [hKept]
    simp
  · rfl

/- A doc comment is missing at the start and behind a line feed. -/
theorem docComment_eq_nil_iff
    {start : List Bytes} :
    docComment start = [] ↔
      start = [] ∨ ∃ front, start = front ++ [[0x0a]] := by
  constructor
  · intro hNil
    rcases List.eq_nil_or_concat start with rfl | ⟨front, line, rfl⟩
    · exact Or.inl rfl
    · refine Or.inr ⟨front, ?_⟩
      by_contra hOther
      have hLine : [0x0a] ∉ [line] := by
        rintro hMem
        rw [List.mem_singleton] at hMem
        exact hOther (by simp [hMem])
      rw [List.concat_eq_append, docComment_append front hLine] at hNil
      simp at hNil
  · rintro (rfl | ⟨front, rfl⟩)
    · rfl
    · exact docComment_append_lineFeed front []

------------------------------------------------------------
-- Clones
------------------------------------------------------------

/-
  A duplicate of a declaration for an alias.  Its comment is
  the doc comment of the declaration, followed by a marker
  if the alias is deprecated.  With the name, the comment and
  the space of the declaration it is that declaration again.
-/
structure IsClone
    (original : Decl)
    (a : Alias)
    (clone : Decl) : Prop where
  name : Decl.identifier? clone.body = some a.name
  before : clone.before = .emptyLine
  plain :
    a.deprecation = none →
      clone.start = docComment original.start
  marked :
    ∀ dep, a.deprecation = some dep →
      clone.start =
        docComment original.start ++
          (if docComment original.start = [] then []
            else [slashes]) ++
          dep.markerLines
  body :
    Decl.Renamed original.identifier a.name
      original.body clone.body
  restores :
    { clone.rename original.identifier with
      start := original.start
      before := original.before } = original

/- Its comment is a doc comment, with a marker if it has one. -/
theorem IsClone.start_eq
    {original clone : Decl}
    {a : Alias}
    (h : IsClone original a clone) :
    clone.start =
      Deprecation.annotate a.deprecation
        (docComment original.start) := by
  cases hDep : a.deprecation with
  | none => exact h.plain hDep
  | some dep =>
      rw [h.marked dep hDep]
      cases docComment original.start with
      | nil => rfl
      | cons line lines =>
          simp [Deprecation.annotate]

/-
  The result of expanding a declaration of a kind.  Only the
  comment lines of the declaration itself change, by the
  removal of the directive.
-/
structure IsExpansion
    (r : Request)
    (kind : Kind)
    (result : Result) : Prop where
  kind : result.kind = kind
  name : Decl.identifier? r.decl.body = some result.name
  count : result.decls.length = r.aliases.length + 1
  original :
    result.original =
      { r.decl with
        start :=
          match r.directive with
          | none => r.decl.start
          | some d => d.strip r.decl.start }
  clones :
    List.Forall₂ (IsClone result.original)
      r.aliases result.clones

/- A declaration with an identifying name can be duplicated. -/
theorem isClone_duplicate
    {original : Decl}
    {name : Bytes}
    (a : Alias)
    (hName : Decl.identifier? original.body = some name) :
    IsClone original a (duplicate original a) := by
  have hIdentifier : original.identifier = name := by
    simp [Decl.identifier, hName]
  have hBody :
      Decl.Renamed name a.name original.body
        (duplicate original a).body :=
    Decl.renamed_renameBody a.name hName
  refine
    { name := hBody.identifier?_eq
      before := rfl
      plain := ?_
      marked := ?_
      body := ?_
      restores := ?_ }
  · intro hNone
    simp [duplicate, Deprecation.annotate, hNone]
  · intro dep hSome
    simp only [duplicate, Deprecation.annotate, hSome,
      List.isEmpty_iff]
    split
    · rename_i hEmpty
      rw [hEmpty]
      rfl
    · rfl
  · rw [hIdentifier]
    exact hBody
  · rw [hIdentifier, Decl.rename, hBody.symm.renameBody_eq]
    rfl

------------------------------------------------------------
-- Expansion of a Classified Declaration
------------------------------------------------------------

/- A declaration of a kind loses its directive. -/
theorem clean_of_classify
    {decl : Decl}
    {locate : Decl.Locator}
    {kind : Kind}
    (directive : Option Directive)
    (hKind : decl.classify locate = .ok kind) :
    clean directive decl =
      { decl with
        start :=
          match directive with
          | none => decl.start
          | some d => d.strip decl.start } := by
  cases directive with
  | none => rfl
  | some d =>
      have hGood : decl.isBad = false := by
        unfold Decl.isBad
        split
        · rename_i hBody
          simp [Decl.classify, hBody] at hKind
        · rfl
      simp [clean, Decl.withStart, hGood]

/- With aliases, the expansion of such a declaration succeeds. -/
theorem expand_of_classify
    {r : Request}
    {kind : Kind}
    (hAliases : r.aliases ≠ [])
    (hKind : r.decl.classify r.locate = .ok kind) :
    expand r =
      .ok
        { kind := kind
          name := r.decl.identifier
          original := clean r.directive r.decl
          clones :=
            r.aliases.map
              (duplicate (clean r.directive r.decl)) } := by
  have hEmpty : r.aliases.isEmpty = false :=
    List.isEmpty_eq_false_iff.mpr hAliases
  simp only [expand, hEmpty, Bool.false_eq_true, if_false,
    hKind]

/-
  A declaration of a kind is expanded for every list of
  aliases with an entry, into itself and its duplicates.
-/
theorem expand_yields_clones
    {r : Request}
    {kind : Kind}
    (hAliases : r.aliases ≠ [])
    (hKind : r.decl.classify r.locate = .ok kind) :
    ∃ result,
      expand r = .ok result ∧ IsExpansion r kind result := by
  rcases Decl.exists_identifier?_of_classify hKind with
    ⟨name, hName⟩
  have hClean := clean_of_classify r.directive hKind
  have hOriginal :
      Decl.identifier? (clean r.directive r.decl).body =
        some name := by
    rw [hClean]
    exact hName
  refine ⟨_, expand_of_classify hAliases hKind, ?_⟩
  refine
    { kind := rfl
      name := ?_
      count := by simp [Result.decls]
      original := hClean
      clones := ?_ }
  · simp [Decl.identifier, hName]
  · simp only [List.forall₂_map_right_iff]
    exact List.forall₂_same.mpr fun a _ =>
      isClone_duplicate a hOriginal

/- A method of a pointer to a generic type, with two aliases. -/
def poolRequest : Request :=
  { decl :=
      { body :=
          .func (utf8 "Close")
            (some
              [.star (.paren (.index
                (.ident (utf8 "Pool")) (.ident (utf8 "K")))),
                .ident (utf8 "Rest")])
        start := [utf8 "// text", [0x0a], utf8 "// Close."] }
    aliases :=
      [{ name := utf8 "Tank" },
        { name := utf8 "Pond"
          deprecation := some { note := some (utf8 "dry") } }] }

theorem expand_yields_pool_clones :
    ∃ result,
      expand poolRequest = .ok result ∧
        IsExpansion poolRequest .method result :=
  expand_yields_clones (by simp [poolRequest]) rfl

end Expand

end Namesake
