import Mathlib.Data.List.Forall2
import Namesake.Generate.Expansion
import Namesake.Proofs.Arguments.Exactness
import Namesake.Proofs.Diagnostics
import Namesake.Proofs.Directive.Search
import Namesake.Proofs.Expand.Clones

/-
  What becomes of the declarations of a file.  A declaration
  with a directive is expanded or has one error, and nothing
  happens to any other.

  Main declarations:
    * `Generate.Expands` and `Generate.Fails`
    * `Generate.expandSite_cases`
    * `Generate.Settles`
    * `Generate.settles_expandFile`
    * `Generate.expandFile_accounts_for_annotated`
-/

namespace Namesake

------------------------------------------------------------
-- Errors and Warnings
------------------------------------------------------------

/- A diagnostic that is an error with one of three codes. -/
structure Diagnostic.IsCodedError
    (d : Diagnostic) : Prop where
  severity : d.severity = .error
  code :
    d.code ∈
      [malformedArguments, unsupportedDeclaration,
        malformedSelfType]

/- A second directive is an error with a code. -/
theorem Directive.isCodedError_of_find
    {name : Bytes}
    {doc : List DocLine}
    {d : Diagnostic}
    (h : find name doc = .error d) :
    d.IsCodedError := by
  rcases exists_duplicate_of_find h with ⟨first, line, _, rfl⟩
  exact ⟨rfl, by simp [duplicate]⟩

theorem Directive.isCodedError_of_aliases
    {dir : Directive}
    {d : Diagnostic}
    (h : dir.aliases = .error d) :
    d.IsCodedError := by
  unfold aliases Alias.parse at h
  split at h
  · cases h
  · rw [← Except.error.inj h]
    exact ⟨rfl, by simp [Alias.diagnose]⟩

/- So has a declaration that is rejected. -/
theorem Decl.isCodedError_of_classify
    {decl : Decl}
    {locate : Locator}
    {d : Diagnostic}
    (h : decl.classify locate = .error d) :
    d.IsCodedError := by
  unfold classify at h
  split at h
  · cases h
  · rw [← Except.error.inj h]
    exact ⟨rfl, by simp [emptyReceiver]⟩
  · split at h
    · cases h
    · rw [← Except.error.inj h]
      exact ⟨rfl, by simp [unnamedReceiver]⟩
  · split at h
    · cases h
    · rw [← Except.error.inj h]
      exact ⟨rfl, by simp [unsupported]⟩
  · rw [← Except.error.inj h]
    exact ⟨rfl, by simp [unsupported]⟩

namespace Lint

theorem severity_of_mem_checkOne
    {options : Options}
    {seen : List Bytes}
    {a : Alias}
    {d : Diagnostic}
    (h : d ∈ checkOne options seen a) :
    d.severity = .warning := by
  rcases List.mem_append.mp h with hName | hSince
  · split at hName
    · unfold duplicate? at hName
      split at hName
      · rw [List.mem_singleton.mp hName]
      · cases hName
    · cases hName
  · split at hSince
    · unfold since? at hSince
      split at hSince
      · cases hSince
      · split at hSince
        · cases hSince
        · rw [List.mem_singleton.mp hSince]
    · cases hSince

/- Every check is a warning. -/
theorem severity_of_mem_check
    {options : Options}
    {aliases : List Alias}
    {d : Diagnostic}
    (h : d ∈ check options aliases) :
    d.severity = .warning := by
  unfold check at h
  generalize [] = seen at h
  induction aliases generalizing seen with
  | nil => cases h
  | cons a rest ih =>
      rcases List.mem_append.mp h with hHere | hLater
      · exact severity_of_mem_checkOne hHere
      · exact ih _ hLater

end Lint

namespace Generate

open Directive

------------------------------------------------------------
-- One Declaration
------------------------------------------------------------

/-
  An expansion is what its declaration asks for: the aliases
  of its directive, the declaration without the directive,
  and one duplicate for each alias.
-/
structure Expands
    (s : Settings)
    (e : Expansion) : Prop where
  found :
    find s.directive e.site.item.doc =
      .ok (some e.site.directive)
  aliases : e.site.directive.aliases = .ok e.aliases
  nonempty : e.aliases ≠ []
  original :
    e.result.original =
      { e.site.item.decl with
        start :=
          e.site.directive.strip e.site.item.decl.start }
  clones :
    List.Forall₂ (Expand.IsClone e.result.original)
      e.aliases e.result.clones

/- The error of a declaration that is not expanded. -/
inductive Fails
    (s : Settings)
    (item : Source.Item) : Diagnostic → Prop where
  | duplicate
      {d : Diagnostic}
      (hFind : find s.directive item.doc = .error d) :
      Fails s item d
  | arguments
      {dir : Directive}
      {d : Diagnostic}
      (hFind : find s.directive item.doc = .ok (some dir))
      (hAliases : dir.aliases = .error d) :
      Fails s item d
  | declaration
      {dir : Directive}
      {aliases : List Alias}
      {d : Diagnostic}
      (hFind : find s.directive item.doc = .ok (some dir))
      (hAliases : dir.aliases = .ok aliases)
      (hKind : item.decl.classify item.locate = .error d) :
      Fails s item d

/- Every failure is one of these errors. -/
theorem Fails.isCodedError
    {s : Settings}
    {item : Source.Item}
    {d : Diagnostic}
    (h : Fails s item d) :
    d.IsCodedError := by
  cases h with
  | duplicate hFind => exact isCodedError_of_find hFind
  | arguments _ hAliases =>
      exact isCodedError_of_aliases hAliases
  | declaration _ _ hKind =>
      exact Decl.isCodedError_of_classify hKind

/-
  A site is expanded without an error, or it has one error
  and no expansion.
-/
theorem expandSite_cases
    {s : Settings}
    (site : Source.Site)
    (hFind :
      find s.directive site.item.doc =
        .ok (some site.directive)) :
    (∃ e,
        (expandSite s site).1 = some e ∧
          (expandSite s site).2.errors = [] ∧
          e.site = site ∧ Expands s e) ∨
      ∃ d,
        (expandSite s site).1 = none ∧
          (expandSite s site).2.errors = [d] ∧
          Fails s site.item d := by
  unfold expandSite
  cases hAliases : site.directive.aliases with
  | error d =>
      have hSeverity :=
        (isCodedError_of_aliases hAliases).severity
      refine Or.inr ⟨d, rfl, ?_,
        Fails.arguments hFind hAliases⟩
      exact Diagnostics.errors_add_of_error {} hSeverity
  | ok aliases =>
      have hNonempty : aliases ≠ [] :=
        Alias.ne_nil_of_parse hAliases
      have hWarnings :
          ((Lint.check s.lint aliases).foldl
            Diagnostics.add {}).errors = [] :=
        Diagnostics.errors_foldl_add {} fun _ =>
          Lint.severity_of_mem_check
      cases hKind : site.item.decl.classify site.item.locate with
      | error d =>
          have hSeverity :=
            (Decl.isCodedError_of_classify hKind).severity
          refine Or.inr ⟨d, ?_, ?_,
            Fails.declaration hFind hAliases hKind⟩
          · simp [Expand.expand, hNonempty, hKind]
          · simp [Expand.expand, hNonempty, hKind,
              reportError, Diagnostics.addError,
              Diagnostics.errors_add_of_error _ hSeverity,
              hWarnings]
      | ok kind =>
          rcases Decl.exists_identifier?_of_classify hKind with
            ⟨name, hName⟩
          have hExpand :=
            Expand.expand_of_classify
              (r :=
                { decl := site.item.decl
                  aliases := aliases
                  directive := some site.directive
                  locate := site.item.locate })
              hNonempty hKind
          have hClean :=
            Expand.clean_of_classify
              (some site.directive) hKind
          refine Or.inl ⟨⟨site, aliases, _⟩,
            by simp only [hExpand]; rfl, ?_, rfl, ?_⟩
          · simp only [hExpand]
            exact hWarnings
          · refine ⟨hFind, hAliases, hNonempty, hClean, ?_⟩
            simp only [List.forall₂_map_right_iff]
            refine List.forall₂_same.mpr fun a _ => ?_
            have hIdentifier :
                Decl.identifier?
                    (Expand.clean (some site.directive)
                      site.item.decl).body = some name := by
              rw [hClean]
              exact hName
            exact Expand.isClone_duplicate a hIdentifier

------------------------------------------------------------
-- All Declarations
------------------------------------------------------------

/-
  What becomes of the declarations from an index on: the
  expansions, and the errors with the indices they are about.
  Errors of the search are kept apart from those of sites.
-/
inductive Settles
    (s : Settings) :
    Nat → List Source.Item → List Expansion →
      (early late : List (Nat × Diagnostic)) → Prop where
  | nil
      {index : Nat} :
      Settles s index [] [] [] []
  | plain
      {index : Nat}
      {item : Source.Item}
      {items : List Source.Item}
      {expansions : List Expansion}
      {early late : List (Nat × Diagnostic)}
      (hFind : find s.directive item.doc = .ok none)
      (hRest :
        Settles s (index + 1) items expansions early late) :
      Settles s index (item :: items) expansions early late
  | duplicate
      {index : Nat}
      {item : Source.Item}
      {items : List Source.Item}
      {expansions : List Expansion}
      {early late : List (Nat × Diagnostic)}
      {d : Diagnostic}
      (hFind : find s.directive item.doc = .error d)
      (hRest :
        Settles s (index + 1) items expansions early late) :
      Settles s index (item :: items) expansions
        ((index, d) :: early) late
  | failed
      {index : Nat}
      {item : Source.Item}
      {items : List Source.Item}
      {expansions : List Expansion}
      {early late : List (Nat × Diagnostic)}
      {dir : Directive}
      {d : Diagnostic}
      (hFind : find s.directive item.doc = .ok (some dir))
      (hFails : Fails s item d)
      (hRest :
        Settles s (index + 1) items expansions early late) :
      Settles s index (item :: items) expansions
        early ((index, d) :: late)
  | expanded
      {items : List Source.Item}
      {e : Expansion}
      {expansions : List Expansion}
      {early late : List (Nat × Diagnostic)}
      (hExpands : Expands s e)
      (hRest :
        Settles s (e.site.index + 1) items expansions
          early late) :
      Settles s e.site.index (e.site.item :: items)
        (e :: expansions) early late

/-
  By induction on the items: an item has no directive, fails
  early or late, or is expanded.
-/
theorem settles_expandSites
    (s : Settings)
    (index : Nat)
    (items : List Source.Item) :
    ∃ early late,
      Settles s index items
          (expandSites s
            (Source.File.sitesFrom s.directive index items).1).1
          early late ∧
        (Source.File.sitesFrom s.directive index
            items).2.errors =
          early.map Prod.snd ∧
        (expandSites s
            (Source.File.sitesFrom s.directive index
              items).1).2.errors =
          late.map Prod.snd := by
  induction items generalizing index with
  | nil => exact ⟨[], [], Settles.nil, rfl, rfl⟩
  | cons item items ih =>
      rcases ih (index + 1) with
        ⟨early, late, hRest, hEarly, hLate⟩
      cases hFind : find s.directive item.doc with
      | error d =>
          have hSeverity := (isCodedError_of_find hFind).severity
          refine ⟨(index, d) :: early, late, ?_, ?_, ?_⟩
          · simp only [Source.File.sitesFrom, hFind]
            exact Settles.duplicate hFind hRest
          · simp only [Source.File.sitesFrom, hFind,
              Diagnostics.errors_merge,
              Diagnostics.errors_add_of_error _ hSeverity,
              hEarly]
            rfl
          · simp only [Source.File.sitesFrom, hFind]
            exact hLate
      | ok found =>
          cases found with
          | none =>
              refine ⟨early, late, ?_, ?_, ?_⟩
              · simp only [Source.File.sitesFrom, hFind]
                exact Settles.plain hFind hRest
              · simp only [Source.File.sitesFrom, hFind]
                exact hEarly
              · simp only [Source.File.sitesFrom, hFind]
                exact hLate
          | some dir =>
              rcases expandSite_cases
                  ⟨index, item, dir⟩ hFind with
                ⟨e, hSome, hNone, hSite, hExpands⟩ |
                ⟨d, hNone, hOne, hFails⟩
              · refine ⟨early, late, ?_, ?_, ?_⟩
                · simp only [Source.File.sitesFrom, hFind,
                    expandSites, hSome]
                  have hIndex : e.site.index = index := by
                    rw [hSite]
                  rw [← hIndex] at hRest
                  have hAll := Settles.expanded hExpands hRest
                  rw [hSite] at hAll
                  exact hAll
                · simp only [Source.File.sitesFrom, hFind]
                  exact hEarly
                · simp only [Source.File.sitesFrom, hFind,
                    expandSites, Diagnostics.errors_merge,
                    hNone]
                  exact hLate
              · refine ⟨early, (index, d) :: late, ?_, ?_, ?_⟩
                · simp only [Source.File.sitesFrom, hFind,
                    expandSites, hNone]
                  exact Settles.failed hFind hFails hRest
                · simp only [Source.File.sitesFrom, hFind]
                  exact hEarly
                · simp only [Source.File.sitesFrom, hFind,
                    expandSites, Diagnostics.errors_merge,
                    hOne, hLate]
                  rfl

/- So each declaration of a file is settled once. -/
theorem settles_expandFile
    (s : Settings)
    (file : Source.File) :
    ∃ early late,
      Settles s 0 file.items (expandFile s file).expansions
          early late ∧
        (expandFile s file).diagnostics.errors =
          (early ++ late).map Prod.snd := by
  rcases settles_expandSites s 0 file.items with
    ⟨early, late, hSettles, hEarly, hLate⟩
  refine ⟨early, late, hSettles, ?_⟩
  rw [List.map_append, ← hEarly, ← hLate]
  rfl

namespace Settles

/- Each expansion is that of the declaration at its index. -/
theorem expands
    {s : Settings}
    {index : Nat}
    {items : List Source.Item}
    {expansions : List Expansion}
    {early late : List (Nat × Diagnostic)}
    (h : Settles s index items expansions early late)
    {e : Expansion}
    (hMem : e ∈ expansions) :
    (e.site.item, e.site.index) ∈ items.zipIdx index ∧
      Expands s e := by
  induction h with
  | nil => cases hMem
  | plain _ _ ih | duplicate _ _ ih | failed _ _ _ ih =>
      rcases ih hMem with ⟨hAt, hExpands⟩
      exact ⟨List.mem_cons_of_mem _ hAt, hExpands⟩
  | expanded hHere _ ih =>
      rcases List.mem_cons.mp hMem with rfl | hLater
      · exact ⟨List.mem_cons_self, hHere⟩
      · rcases ih hLater with ⟨hAt, hExpands⟩
        exact ⟨List.mem_cons_of_mem _ hAt, hExpands⟩

/- Each error is that of the declaration at its index. -/
theorem fails
    {s : Settings}
    {index : Nat}
    {items : List Source.Item}
    {expansions : List Expansion}
    {early late : List (Nat × Diagnostic)}
    (h : Settles s index items expansions early late)
    {p : Nat × Diagnostic}
    (hMem : p ∈ early ++ late) :
    ∃ item,
      (item, p.1) ∈ items.zipIdx index ∧
        Fails s item p.2 := by
  induction h with
  | nil => cases hMem
  | plain _ _ ih | expanded _ _ ih =>
      rcases ih hMem with ⟨item, hAt, hFails⟩
      exact ⟨item, List.mem_cons_of_mem _ hAt, hFails⟩
  | @duplicate _ item _ _ _ _ _ hFind _ ih =>
      rcases List.mem_cons.mp hMem with rfl | hLater
      · exact ⟨item, List.mem_cons_self,
          Fails.duplicate hFind⟩
      · rcases ih hLater with ⟨other, hAt, hFails⟩
        exact ⟨other, List.mem_cons_of_mem _ hAt, hFails⟩
  | @failed _ item _ _ _ _ _ _ _ hHere _ ih =>
      rcases List.mem_cons.mp
          (List.perm_middle.mem_iff.mp hMem) with rfl | hLater
      · exact ⟨item, List.mem_cons_self, hHere⟩
      · rcases ih hLater with ⟨other, hAt, hFails⟩
        exact ⟨other, List.mem_cons_of_mem _ hAt, hFails⟩

/- Expansions stand in the order of their declarations. -/
theorem pairwise_index
    {s : Settings}
    {index : Nat}
    {items : List Source.Item}
    {expansions : List Expansion}
    {early late : List (Nat × Diagnostic)}
    (h : Settles s index items expansions early late) :
    (expansions.map fun e => e.site.index).Pairwise
      (· < ·) := by
  induction h with
  | nil => exact List.Pairwise.nil
  | plain _ _ ih | duplicate _ _ ih | failed _ _ _ ih =>
      exact ih
  | expanded _ hRest ih =>
      refine List.Pairwise.cons ?_ ih
      intro i hi
      rcases List.mem_map.mp hi with ⟨e', hMem, rfl⟩
      exact List.le_snd_of_mem_zipIdx (hRest.expands hMem).1

end Settles

/- What is expanded is a declaration of the file. -/
theorem expands_of_mem_expansions
    {s : Settings}
    {f : Source.File}
    {e : Expansion}
    (h : e ∈ (expandFile s f).expansions) :
    e.site.item ∈ f.items ∧ Expands s e := by
  rcases settles_expandFile s f with ⟨_, _, hSettles, _⟩
  rcases hSettles.expands h with ⟨hAt, hExpands⟩
  exact ⟨List.fst_mem_of_mem_zipIdx hAt, hExpands⟩

end Generate

------------------------------------------------------------
-- Annotated Declarations
------------------------------------------------------------

namespace Source

/- Does the doc comment hold a directive, or more than one? -/
def Item.isAnnotated
    (name : Bytes)
    (item : Item) : Bool :=
  match Directive.find name item.doc with
  | .ok none => false
  | _ => true

/- The indices of the declarations with a directive. -/
def File.annotated
    (f : File)
    (name : Bytes) : List Nat :=
  f.items.findIdxs (Item.isAnnotated name)

/- A doc comment that is in error is annotated, too. -/
theorem Item.isAnnotated_iff
    (name : Bytes)
    (item : Item) :
    item.isAnnotated name = true ↔
      Directive.find name item.doc ≠ .ok none := by
  unfold isAnnotated
  split
  · rename_i hFind
    simp [hFind]
  · rename_i hFind
    simpa using hFind

end Source

namespace Generate

open Directive

/- Only what is annotated can fail. -/
theorem Fails.isAnnotated
    {s : Settings}
    {item : Source.Item}
    {d : Diagnostic}
    (h : Fails s item d) :
    item.isAnnotated s.directive = true := by
  rw [Source.Item.isAnnotated_iff]
  cases h with
  | duplicate hFind => simp [hFind]
  | arguments hFind => simp [hFind]
  | declaration hFind => simp [hFind]

/- Expansions and errors share the annotated declarations. -/
theorem Settles.perm_annotated
    {s : Settings}
    {index : Nat}
    {items : List Source.Item}
    {expansions : List Expansion}
    {early late : List (Nat × Diagnostic)}
    (h : Settles s index items expansions early late) :
    (expansions.map (fun e => e.site.index) ++
        (early ++ late).map Prod.fst).Perm
      (items.findIdxs
        (Source.Item.isAnnotated s.directive) index) := by
  induction h with
  | nil => exact List.Perm.nil
  | @plain _ item _ _ _ _ hFind _ ih =>
      have hPlain : item.isAnnotated s.directive = false := by
        simp [Source.Item.isAnnotated, hFind]
      simpa [hPlain] using ih
  | duplicate hFind _ ih =>
      have hHere := (Fails.duplicate hFind).isAnnotated
      simp only [List.findIdxs_cons, hHere, if_true,
        List.cons_append, List.map_cons]
      exact List.perm_middle.trans (ih.cons _)
  | failed _ hFails _ ih =>
      simp only [List.findIdxs_cons, hFails.isAnnotated,
        if_true]
      refine ((List.perm_middle.map Prod.fst).append_left
        _).trans ?_
      rw [List.map_cons]
      exact List.perm_middle.trans (ih.cons _)
  | @expanded _ e _ _ _ hExpands _ ih =>
      have hHere :
          e.site.item.isAnnotated s.directive = true := by
        simp [Source.Item.isAnnotated, hExpands.found]
      simp only [List.findIdxs_cons, hHere, if_true,
        List.map_cons, List.cons_append]
      exact ih.cons _

------------------------------------------------------------
-- Accounts
------------------------------------------------------------

/-
  The result of a file accounts for its annotated
  declarations: `blamed` names, for each error, the index of
  the declaration it is about.
-/
structure Accounts
    (s : Settings)
    (file : Source.File)
    (r : FileResult)
    (blamed : List Nat) : Prop where
  expanded :
    ∀ e ∈ r.expansions,
      file.items[e.site.index]? = some e.site.item ∧
        Expands s e
  failed :
    List.Forall₂
      (fun i d =>
        ∃ item,
          file.items[i]? = some item ∧ Fails s item d)
      blamed r.diagnostics.errors
  once :
    ∀ i,
      r.expansions.countP (fun e => e.site.index == i) +
          blamed.count i =
        if i ∈ file.annotated s.directive then 1 else 0
  ordered :
    r.expansions.Pairwise fun e e' =>
      e.site.index < e'.site.index
  coded : ∀ d ∈ r.diagnostics.errors, d.IsCodedError
  total :
    r.expansions.length + r.diagnostics.errors.length =
      (file.annotated s.directive).length

/-
  For each annotated declaration of a file there is exactly
  one expansion or exactly one error, and for no other
  declaration is there any.
-/
theorem expandFile_accounts_for_annotated
    (s : Settings)
    (file : Source.File) :
    ∃ blamed,
      Accounts s file (expandFile s file) blamed := by
  rcases settles_expandFile s file with
    ⟨early, late, hSettles, hErrors⟩
  have hPerm := hSettles.perm_annotated
  refine ⟨(early ++ late).map Prod.fst, ?_⟩
  refine
    { expanded := ?_
      failed := ?_
      once := ?_
      ordered := List.pairwise_map.mp hSettles.pairwise_index
      coded := ?_
      total := ?_ }
  · intro e hMem
    rcases hSettles.expands hMem with ⟨hAt, hExpands⟩
    exact ⟨List.mem_zipIdx_iff_getElem?.mp hAt, hExpands⟩
  · rw [hErrors, List.forall₂_map_left_iff,
      List.forall₂_map_right_iff]
    refine List.forall₂_same.mpr fun p hMem => ?_
    rcases hSettles.fails hMem with ⟨item, hAt, hFails⟩
    exact ⟨item, List.mem_zipIdx_iff_getElem?.mp hAt, hFails⟩
  · intro i
    have hCount := hPerm.count_eq i
    rw [List.count_append, List.count_eq_countP,
      List.countP_map, List.nodup_findIdxs.count] at hCount
    exact hCount
  · intro d hMem
    rw [hErrors] at hMem
    rcases List.mem_map.mp hMem with ⟨p, hPair, rfl⟩
    rcases hSettles.fails hPair with ⟨_, _, hFails⟩
    exact hFails.isCodedError
  · have hLength := hPerm.length_eq
    simpa [hErrors, Source.File.annotated] using hLength

end Generate

end Namesake
