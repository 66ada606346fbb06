import Mathlib.Data.Finset.Card
import Mathlib.Data.Finset.SDiff
import Mathlib.Data.Finset.Insert
import Namesake.Lint

/-
  Warnings about a list of aliases.  The name of an alias is
  warned about exactly if an alias before it has the same one,
  and its since text exactly if it is no version.  A check
  that is off takes its own warnings away and no others.

  Main declarations:
    * `Lint.warnings`
    * `Lint.checkFrom_eq_flatMap`
    * `Lint.checkFrom_filter`
    * `Lint.countP_checkFrom`
    * `Lint.check_warns_exactly`
-/

namespace Namesake

namespace Lint

------------------------------------------------------------
-- Warnings of One Alias
------------------------------------------------------------

/- The warning about a name that an alias before has as well. -/
def repeatWarning
    (a : Alias) : Diagnostic :=
  { severity := .warning
    code := Diagnostic.duplicateAlias
    message :=
      utf8 "alias " ++ a.name ++
        utf8 " is listed more than once; every occurrence is emitted"
    span := a.span }

/- The warning about a since text. -/
def sinceWarning
    (a : Alias)
    (since : Bytes) : Diagnostic :=
  { severity := .warning
    code := Diagnostic.sinceNotSemver
    message :=
      utf8 "since " ++ Quoted.encode since ++ utf8 " of alias " ++
        a.name ++ utf8 " is not a semantic version"
    span := a.span
    suggestions :=
      [utf8 "use a version such as \"1.2.0\" or \"v1.2.0\""] }

/- The since text of an alias, if it has one that is no version. -/
def badSince?
    (a : Alias) : Option Bytes :=
  (a.deprecation.bind Deprecation.since).filter
    fun since => !Version.isVersion since

/- The warnings that an alias gets behind the `earlier` ones. -/
def warnings
    (earlier : List Alias)
    (a : Alias) : List Diagnostic :=
  (if a.name ∈ earlier.map Alias.name then
      [repeatWarning a]
    else
      []) ++
    (badSince? a).toList.map (sinceWarning a)

theorem duplicate?_eq
    (seen : List Bytes)
    (a : Alias) :
    duplicate? seen a =
      if a.name ∈ seen then some (repeatWarning a) else none := by
  unfold duplicate?
  by_cases hSeen : a.name ∈ seen
  · rw [if_pos hSeen, if_pos (List.contains_iff_mem.mpr hSeen)]
    rfl
  · have hContains : ¬ seen.contains a.name = true := by
      intro hContains
      exact hSeen (List.contains_iff_mem.mp hContains)
    rw [if_neg hSeen, if_neg hContains]

theorem since?_eq
    (a : Alias) :
    since? a = (badSince? a).map (sinceWarning a) := by
  unfold since? badSince?
  cases a.deprecation.bind Deprecation.since with
  | none => rfl
  | some since =>
      simp only
      by_cases hVersion : Version.isVersion since = true
      · simp [hVersion]
      · rw [if_neg hVersion]
        simp only [Bool.not_eq_true] at hVersion
        simp [hVersion, sinceWarning]

/- Only the names count that an alias before has. -/
theorem checkOne_eq_warnings
    {seen : List Bytes}
    {earlier : List Alias}
    (a : Alias)
    (hSeen : ∀ name, name ∈ seen ↔ name ∈ earlier.map Alias.name) :
    checkOne ⟨true, true⟩ seen a = warnings earlier a := by
  unfold checkOne warnings
  rw [duplicate?_eq, since?_eq]
  simp only [if_true, hSeen, Option.toList_map]
  by_cases hName : a.name ∈ earlier.map Alias.name
  · simp [hName]
  · simp [hName]

------------------------------------------------------------
-- Warnings by Position
------------------------------------------------------------

/-
  The names that the check has seen are those of the aliases
  it has passed, so that each position gets the warnings of
  its alias behind all aliases in front of it.
-/
theorem checkFrom_eq_flatMap
    {seen : List Bytes}
    (earlier aliases : List Alias)
    (hSeen : ∀ name, name ∈ seen ↔ name ∈ earlier.map Alias.name) :
    checkFrom ⟨true, true⟩ seen aliases =
      (aliases.zipIdx earlier.length).flatMap fun p =>
        warnings ((earlier ++ aliases).take p.2) p.1 := by
  induction aliases generalizing seen earlier with
  | nil => rfl
  | cons a aliases ih =>
      have hNext :
          ∀ name,
            name ∈ a.name :: seen ↔
              name ∈ (earlier ++ [a]).map Alias.name := by
        intro name
        simp [hSeen name, or_comm]
      have hRest := ih (earlier ++ [a]) hNext
      rw [List.append_assoc, List.singleton_append,
        List.length_append, List.length_singleton] at hRest
      rw [checkFrom, hRest, checkOne_eq_warnings a hSeen,
        List.zipIdx_cons, List.flatMap_cons,
        List.take_left]

------------------------------------------------------------
-- Checks That Are Off
------------------------------------------------------------

/- The two checks are told apart by the codes of their warnings. -/
theorem duplicateAlias_ne_sinceNotSemver :
    Diagnostic.duplicateAlias ≠ Diagnostic.sinceNotSemver := by
  decide

theorem code_of_mem_duplicate?
    {seen : List Bytes}
    {a : Alias}
    {w : Diagnostic}
    (h : w ∈ (duplicate? seen a).toList) :
    w.code = Diagnostic.duplicateAlias := by
  rw [duplicate?_eq] at h
  split at h
  · rw [List.mem_singleton.mp h]
    rfl
  · cases h

theorem code_of_mem_since?
    {a : Alias}
    {w : Diagnostic}
    (h : w ∈ (since? a).toList) :
    w.code = Diagnostic.sinceNotSemver := by
  rw [since?_eq, Option.toList_map] at h
  rcases List.mem_map.mp h with ⟨since, _, rfl⟩
  rfl

/- Without the warnings of a check that all have one code. -/
theorem filter_code_ne
    {code : Bytes}
    {ws : List Diagnostic}
    (hCode : ∀ w ∈ ws, w.code = code)
    (enabled : Bool)
    (other : Bytes) :
    (if enabled then ws else []).filter (·.code ≠ other) =
      if enabled && code != other then ws else [] := by
  cases enabled with
  | false => rfl
  | true =>
      by_cases hSame : code = other
      · subst hSame
        simpa using hCode
      · have hKeep : ∀ w ∈ ws, w.code ≠ other := by
          intro w hMem
          rw [hCode w hMem]
          exact hSame
        simpa [hSame] using hKeep

/- The checks without those whose warnings have the code. -/
def Options.without
    (options : Options)
    (code : Bytes) : Options :=
  { semverSince :=
      options.semverSince && Diagnostic.sinceNotSemver != code
    duplicateAliases :=
      options.duplicateAliases &&
        Diagnostic.duplicateAlias != code }

/- Only the check of since texts gives warnings about them. -/
theorem Options.without_sinceNotSemver
    (options : Options) :
    { options with semverSince := true }.without
        Diagnostic.sinceNotSemver =
      { options with semverSince := false } := by
  simp [without, duplicateAlias_ne_sinceNotSemver]

/- Only the check of names gives warnings about repetitions. -/
theorem Options.without_duplicateAlias
    (options : Options) :
    { options with duplicateAliases := true }.without
        Diagnostic.duplicateAlias =
      { options with duplicateAliases := false } := by
  simp [without, duplicateAlias_ne_sinceNotSemver.symm]

/- Without a check its warnings are missing. -/
theorem checkOne_without
    (options : Options)
    (code : Bytes)
    (seen : List Bytes)
    (a : Alias) :
    checkOne (options.without code) seen a =
      (checkOne options seen a).filter (·.code ≠ code) := by
  have hNames :
      ∀ w ∈ (duplicate? seen a).toList,
        w.code = Diagnostic.duplicateAlias :=
    fun w => code_of_mem_duplicate?
  have hSince :
      ∀ w ∈ (since? a).toList,
        w.code = Diagnostic.sinceNotSemver :=
    fun w => code_of_mem_since?
  unfold checkOne
  rw [List.filter_append, filter_code_ne hNames,
    filter_code_ne hSince]
  rfl

/- What holds of each alias holds of a list. -/
theorem checkFrom_filter
    {on off : Options}
    {p : Diagnostic → Bool}
    (hOne :
      ∀ seen a,
        checkOne off seen a = (checkOne on seen a).filter p)
    (seen : List Bytes)
    (aliases : List Alias) :
    checkFrom off seen aliases =
      (checkFrom on seen aliases).filter p := by
  induction aliases generalizing seen with
  | nil => rfl
  | cons a aliases ih =>
      rw [checkFrom, checkFrom, List.filter_append, hOne, ih]

------------------------------------------------------------
-- Numbers of Warnings
------------------------------------------------------------

/- An alias has one warning about its name, or none. -/
theorem countP_checkOne
    (seen : List Bytes)
    (a : Alias) :
    (checkOne ⟨true, true⟩ seen a).countP
        (·.code = Diagnostic.duplicateAlias) =
      if a.name ∈ seen then 1 else 0 := by
  have hSince :
      (since? a).toList.countP
          (·.code = Diagnostic.duplicateAlias) =
        0 := by
    rw [List.countP_eq_zero]
    intro w hMem
    simp [code_of_mem_since? hMem,
      duplicateAlias_ne_sinceNotSemver.symm]
  unfold checkOne
  simp only [if_true]
  rw [List.countP_append, hSince, duplicate?_eq]
  by_cases hName : a.name ∈ seen
  · simp [hName, repeatWarning]
  · simp [hName]

/-
  Each alias has a name that is new, or a warning that it is
  not.
-/
theorem countP_checkFrom
    (seen : List Bytes)
    (aliases : List Alias) :
    (checkFrom ⟨true, true⟩ seen aliases).countP
          (·.code = Diagnostic.duplicateAlias) +
        ((aliases.map Alias.name).toFinset \
          seen.toFinset).card =
      aliases.length := by
  induction aliases generalizing seen with
  | nil => simp [checkFrom]
  | cons a aliases ih =>
      have hRest := ih (a.name :: seen)
      rw [checkFrom, List.countP_append, countP_checkOne,
        List.map_cons, List.toFinset_cons, List.length_cons]
      rw [List.toFinset_cons] at hRest
      by_cases hName : a.name ∈ seen
      · have hMem : a.name ∈ seen.toFinset :=
          List.mem_toFinset.mpr hName
        rw [Finset.insert_eq_of_mem hMem] at hRest
        rw [if_pos hName, Finset.insert_sdiff_of_mem _ hMem]
        omega
      · have hNotMem : a.name ∉ seen.toFinset := by
          intro hMem
          exact hName (List.mem_toFinset.mp hMem)
        have hNew :=
          Finset.card_erase_add_one
            (Finset.mem_insert_self a.name
              ((aliases.map Alias.name).toFinset \
                seen.toFinset))
        rw [Finset.erase_insert_eq_erase,
          ← Finset.sdiff_insert] at hNew
        rw [if_neg hName,
          Finset.insert_sdiff_of_notMem _ hNotMem]
        omega

/-
  With both checks on, each position gets the warning about a
  repeated name exactly if an alias before it has that name,
  and then the one about its since text exactly if that is no
  version.  There are as many warnings about names as names
  are repeated.  Without a check its warnings are missing.
-/
theorem check_warns_exactly
    (aliases : List Alias) :
    check ⟨true, true⟩ aliases =
        (aliases.zipIdx.flatMap fun p =>
          warnings (aliases.take p.2) p.1) ∧
      (check ⟨true, true⟩ aliases).countP
            (·.code = Diagnostic.duplicateAlias) +
          (aliases.map Alias.name).toFinset.card =
        aliases.length ∧
      ∀ options : Options,
        check { options with semverSince := false } aliases =
            (check { options with semverSince := true }
              aliases).filter
              (·.code ≠ Diagnostic.sinceNotSemver) ∧
          check { options with duplicateAliases := false }
              aliases =
            (check { options with duplicateAliases := true }
              aliases).filter
              (·.code ≠ Diagnostic.duplicateAlias) := by
  refine ⟨?_, ?_, fun options => ⟨?_, ?_⟩⟩
  · apply checkFrom_eq_flatMap []
    intro name
    rfl
  · have hCount := countP_checkFrom [] aliases
    rw [List.toFinset_nil, Finset.sdiff_empty] at hCount
    exact hCount
  · apply checkFrom_filter
    rw [← options.without_sinceNotSemver]
    exact checkOne_without _ Diagnostic.sinceNotSemver
  · apply checkFrom_filter
    rw [← options.without_duplicateAlias]
    exact checkOne_without _ Diagnostic.duplicateAlias

end Lint

end Namesake
