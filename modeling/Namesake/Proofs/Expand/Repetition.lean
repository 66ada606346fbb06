import Namesake.Proofs.Expand.Acceptance

/-
  Renaming as reading and overwriting one name.  For each
  declaration of a kind, what was written is read, the last
  name written counts, writing what is read changes nothing,
  and the kind stays.  A duplicate of a duplicate is therefore
  a duplicate of the declaration itself.

  Main declarations:
    * `Decl.HasKind.renamed`
    * `Decl.IsLens`
    * `Decl.HasKind.isLens`
    * `Expand.AgreeBehind`
    * `Expand.agreeBehind_duplicate`
    * `Expand.renaming_is_lens`
-/

namespace Namesake

------------------------------------------------------------
-- Kinds of Renamed Declarations
------------------------------------------------------------

namespace Decl

/- A name says nothing about the kind. -/
theorem HasKind.renamed
    {old new : Bytes}
    {body body' : Body}
    {kind : Kind}
    (hKind : HasKind body kind)
    (h : Renamed old new body body') :
    HasKind body' kind := by
  cases hKind with
  | function =>
      cases h
      exact .function new
  | method name rest _ =>
      cases h with
      | method _ _ h =>
          exact .method name rest
            (TypeExpr.leading?_eq_some_iff.mp h.leading?_eq)
  | structType =>
      cases h
      exact .structType new
  | interfaceType =>
      cases h
      exact .interfaceType new
  | constant =>
      cases h
      exact .constant new

/- Such a declaration has the name that its kind leads to. -/
theorem HasKind.identifier?_eq
    {d : Decl}
    {kind : Kind}
    (h : HasKind d.body kind) :
    identifier? d.body = some d.identifier := by
  rcases h.accessible with ⟨f, _, hName, _⟩
  simp [identifier, hName]

theorem HasKind.rename
    {d : Decl}
    {kind : Kind}
    (h : HasKind d.body kind)
    (name : Bytes) :
    HasKind (d.rename name).body kind :=
  h.renamed (renamed_renameBody name h.identifier?_eq)

------------------------------------------------------------
-- Reading and Writing
------------------------------------------------------------

/-
  Reading and overwriting the name of a declaration, at the
  place that its kind leads to, obey the laws of a lens and
  keep the kind.
-/
structure IsLens
    (kind : Kind)
    (d : Decl) : Prop where
  access_eq :
    ∃ f,
      access kind d.body = .ok f ∧
        f.name = d.identifier ∧
        ∀ n, f.put n = (d.rename n).body
  identifier_rename : ∀ n, (d.rename n).identifier = n
  rename_rename :
    ∀ n m, (d.rename n).rename m = d.rename m
  rename_identifier : d.rename d.identifier = d
  classify_rename :
    ∀ n locate, (d.rename n).classify locate = .ok kind

/- A kind is enough for renaming to be a lens. -/
theorem HasKind.isLens
    {d : Decl}
    {kind : Kind}
    (h : HasKind d.body kind) :
    IsLens kind d := by
  have hName := h.identifier?_eq
  refine
    { access_eq := ?_
      identifier_rename := ?_
      rename_rename := ?_
      rename_identifier := ?_
      classify_rename := ?_ }
  · rcases h.accessible with ⟨f, hAccess, hRead, hPut⟩
    refine ⟨f, hAccess, ?_, hPut⟩
    exact Option.some.inj (hRead.symm.trans hName)
  · intro n
    have hRenamed := renamed_renameBody n hName
    simp [identifier, Decl.rename, hRenamed.identifier?_eq]
  · intro n m
    simp [Decl.rename, renameBody_renameBody n m hName]
  · simp [Decl.rename, renameBody_self hName]
  · intro n locate
    exact classify_eq_ok_iff.mpr (h.rename n)

end Decl

namespace Expand

open Decl (HasKind access)

------------------------------------------------------------
-- Duplicates of Duplicates
------------------------------------------------------------

/-
  Declarations that agree in all but their comment lines and
  the space in front.
-/
def AgreeBehind
    (c d : Decl) : Prop :=
  { c with start := d.start, before := d.before } = d

/- Behind the comments, code and layout are the same. -/
theorem agreeBehind_iff
    {c d : Decl} :
    AgreeBehind c d ↔
      c.body = d.body ∧ c.written = d.written := by
  constructor
  · intro h
    unfold AgreeBehind at h
    rw [← h]
    exact ⟨rfl, rfl⟩
  · rintro ⟨hBody, hWritten⟩
    unfold AgreeBehind
    rw [hBody, hWritten]

/- What is written behind the comments is kept, too. -/
theorem clean_written
    (directive : Option Directive)
    (d : Decl) :
    (clean directive d).written = d.written := by
  rcases exists_clean_eq directive d with ⟨start, hClean⟩
  rw [hClean]

/-
  A duplicate of the duplicate for `a` agrees with that of the
  declaration itself, whichever directives are removed.
-/
theorem agreeBehind_duplicate
    {d : Decl}
    {kind : Kind}
    (hKind : HasKind d.body kind)
    (a b : Alias)
    (directive directive' : Option Directive) :
    AgreeBehind
      (duplicate
        (clean directive' (duplicate (clean directive d) a)) b)
      (duplicate (clean directive d) b) := by
  rw [agreeBehind_iff]
  constructor
  · change
      Decl.renameBody b.name
          (clean directive'
            (duplicate (clean directive d) a)).body =
        Decl.renameBody b.name (clean directive d).body
    rw [clean_body]
    change
      Decl.renameBody b.name
          (Decl.renameBody a.name (clean directive d).body) =
        Decl.renameBody b.name (clean directive d).body
    rw [clean_body]
    exact
      Decl.renameBody_renameBody a.name b.name
        hKind.identifier?_eq
  · change
      (clean directive'
          (duplicate (clean directive d) a)).written =
        (clean directive d).written
    rw [clean_written]
    rfl

/- A duplicate has the kind of its declaration. -/
theorem hasKind_duplicate
    {d : Decl}
    {kind : Kind}
    (hKind : HasKind d.body kind)
    (a : Alias)
    (directive : Option Directive) :
    HasKind (duplicate (clean directive d) a).body kind := by
  refine HasKind.rename (d := clean directive d) ?_ a.name
  rw [clean_body]
  exact hKind

------------------------------------------------------------
-- Further Expansion
------------------------------------------------------------

/-
  The name of a declaration of a kind is read and overwritten
  as through a lens.  So each clone of an expansion, plain or
  not, can be expanded again, and gives the clones that the
  declaration itself gives.
-/
theorem renaming_is_lens
    {d : Decl}
    {locate : Decl.Locator}
    {kind : Kind}
    (hKind : d.classify locate = .ok kind) :
    Decl.IsLens kind d ∧
      ∀ (as bs : List Alias)
        (directive directive' : Option Directive)
        (locate' : Decl.Locator)
        (first : Result),
        expand ⟨d, as, directive, locate⟩ = .ok first →
          bs ≠ [] →
          ∀ c ∈ first.clones,
            ∃ again direct,
              expand ⟨c, bs, directive', locate'⟩ = .ok again ∧
                expand ⟨d, bs, directive, locate⟩ =
                  .ok direct ∧
                again.kind = direct.kind ∧
                List.Forall₂ AgreeBehind
                  again.clones direct.clones := by
  have hHas := Decl.classify_eq_ok_iff.mp hKind
  refine ⟨hHas.isLens, ?_⟩
  intro as bs directive directive' locate' first hFirst
    hAliases c hMem
  have hSome : as ≠ [] := by
    rintro rfl
    cases hFirst
  rw [expand_of_classify hSome hKind] at hFirst
  cases hFirst
  rcases List.mem_map.mp hMem with ⟨a, _, rfl⟩
  have hAgain :
      (duplicate (clean directive d) a).classify locate' =
        .ok kind :=
    Decl.classify_eq_ok_iff.mpr
      (hasKind_duplicate hHas a directive)
  refine
    ⟨_, _, expand_of_classify hAliases hAgain,
      expand_of_classify hAliases hKind, rfl, ?_⟩
  simp only [List.forall₂_map_left_iff,
    List.forall₂_map_right_iff]
  exact List.forall₂_same.mpr fun b _ =>
    agreeBehind_duplicate hHas a b directive directive'

/- A method of a pointer to a type in another one. -/
def innerMethod : Decl :=
  { body :=
      .func (utf8 "Close")
        (some
          [.star (.index
            (.selector (.ident (utf8 "Pool")) (utf8 "Inner"))
            (.ident (utf8 "K"))),
            .ident (utf8 "Rest")])
    start := [utf8 "// Close."] }

theorem innerMethod_clone_expands_again :
    innerMethod.classify .unknown = .ok .method ∧
      Decl.IsLens .method innerMethod ∧
      ∃ first,
        expand
            ⟨innerMethod, [{ name := utf8 "Tank" }], none,
              .unknown⟩ =
            .ok first ∧
          ∀ c ∈ first.clones,
            ∃ again direct,
              expand
                  ⟨c, [{ name := utf8 "Pond" }], none,
                    .unknown⟩ =
                  .ok again ∧
                expand
                    ⟨innerMethod, [{ name := utf8 "Pond" }],
                      none, .unknown⟩ =
                    .ok direct ∧
                again.kind = direct.kind ∧
                List.Forall₂ AgreeBehind
                  again.clones direct.clones := by
  have hKind :
      innerMethod.classify .unknown = .ok .method := rfl
  have hFirst :=
    expand_of_classify
      (r :=
        ⟨innerMethod, [{ name := utf8 "Tank" }], none, .unknown⟩)
      (by simp) hKind
  have hLens := renaming_is_lens hKind
  exact
    ⟨hKind, hLens.1, _, hFirst,
      hLens.2 _ _ none none .unknown _ hFirst (by simp)⟩

end Expand

end Namesake
