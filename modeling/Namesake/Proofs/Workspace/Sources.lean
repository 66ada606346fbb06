import Namesake.Proofs.Generate.Companions
import Namesake.Proofs.Path
import Namesake.Proofs.Source.Docs
import Namesake.Proofs.Workspace.Tasks

/-
  What a task works on.  Settings that are read are valid, and
  every source that is loaded is what can be read at its path,
  which ends like the path of a source.

  Main declarations:
    * `Packages.endsWith_of_load`
    * `Packages.FindsSources`
    * `Workspace.Holds`
    * `Workspace.holds_of_prepare`
-/

namespace Namesake

open Settings (sourceEnding)

------------------------------------------------------------
-- Packages
------------------------------------------------------------

namespace Packages

/- Leaving out repetitions brings nothing new. -/
theorem mem_of_mem_distinct
    {α : Type}
    [BEq α]
    {xs : List α}
    {x : α}
    (h : x ∈ distinct xs) :
    x ∈ xs := by
  induction xs with
  | nil => exact h
  | cons y xs ih =>
      rcases List.mem_cons.mp h with rfl | h
      · exact List.mem_cons_self
      · exact List.mem_cons_of_mem y
          (ih (List.mem_filter.mp h).1)

theorem mem_of_mem_partition
    {α : Type}
    {results : List (Except Fault α)}
    {x : α}
    (h : x ∈ (partition results).2) :
    .ok x ∈ results := by
  induction results with
  | nil => cases h
  | cons result results ih =>
      cases result with
      | error f => exact List.mem_cons_of_mem _ (ih h)
      | ok y =>
          rcases List.mem_cons.mp h with rfl | h
          · exact List.mem_cons_self
          · exact List.mem_cons_of_mem _ (ih h)

/- A path ends like the name it leads to. -/
theorem endsWith_absolute
    {name ending : Bytes}
    (dir : Place)
    (h : name.endsWith ending = true) :
    (absolute (dir ++ [name])).endsWith ending = true := by
  rcases List.isSuffixOf_iff_suffix.mp h with ⟨stem, hName⟩
  rcases Bytes.exists_join_concat [Path.separator] dir name with
    ⟨front, hJoin⟩
  refine List.isSuffixOf_iff_suffix.mpr
    ⟨[Path.separator] ++ front ++ stem, ?_⟩
  rw [absolute, hJoin, ← hName]
  simp

/- The files of a package are selected by their names. -/
theorem endsWith_of_filesOf
    {t : FileTree}
    {dir : Place}
    {paths : List Bytes}
    {path : Bytes}
    (h : filesOf t dir = .ok paths)
    (hMem : path ∈ paths) :
    path.endsWith sourceEnding = true := by
  unfold filesOf at h
  simp only at h
  split at h
  · split at h <;> cases h
  · split at h
    · cases h
    · cases h
      rcases List.mem_map.mp hMem with ⟨file, hFile, rfl⟩
      have hSource : isSource file.1 = true := by
        unfold select at hFile
        simp only [List.mem_filter] at hFile
        exact hFile.1.1.2
      unfold isSource at hSource
      simp only [Bool.and_eq_true] at hSource
      exact endsWith_absolute dir hSource.1.1

/- The files of packages are named like sources. -/
theorem endsWith_of_load
    {t : FileTree}
    {here : Place}
    {patterns paths : List Bytes}
    {path : Bytes}
    (h : load t here patterns = .ok paths)
    (hMem : path ∈ paths) :
    path.endsWith sourceEnding = true := by
  unfold load at h
  split at h
  · cases h
  · simp only at h
    split at h
    · cases h
      rcases List.mem_flatten.mp (mem_of_mem_distinct hMem) with
        ⟨files, hFiles, hPath⟩
      rcases List.mem_map.mp (mem_of_mem_partition hFiles) with
        ⟨dir, _, hDir⟩
      exact endsWith_of_filesOf hDir hPath
    · cases h

/-
  What is relied on when packages are loaded: their files are
  named like sources.
-/
structure FindsSources
    [Loader] : Prop where
  named
    {t : FileTree}
    {here : Place}
    {patterns paths : List Bytes}
    {path : Bytes}
    (h : Loader.load t here patterns = .ok paths)
    (hMem : path ∈ paths) :
    path.endsWith sourceEnding = true

/- The loader of one module can be relied on. -/
theorem findsSources_load :
    FindsSources :=
  ⟨endsWith_of_load⟩

end Packages

theorem Source.File.path_of_parse
    {path src : Bytes}
    {f : Source.File}
    (h : Source.File.parse path src = .ok f) :
    f.path = path := by
  rcases exists_tree_of_parse h with ⟨tree, _, rfl⟩
  rfl

namespace Workspace

------------------------------------------------------------
-- Sources
------------------------------------------------------------

/- The file is what can be read at its path, a source. -/
structure Holds
    (w : Workspace)
    (f : Source.File) : Prop where
  parsed :
    ∃ src,
      w.tree.read w.here f.path = .ok src ∧
        Source.File.parse f.path src = .ok f
  named : f.path.endsWith sourceEnding = true

/- A file that is loaded is what its text parses to. -/
theorem exists_of_loadFile
    {path : Bytes}
    {w w' : Workspace}
    {f : Source.File}
    (h : loadFile path w = .ok f w') :
    w' = w ∧ f.path = path ∧
      ∃ src,
        w.tree.read w.here path = .ok src ∧
          Source.File.parse path src = .ok f := by
  have hRead :
      readFile path w = .ok (w.tree.read w.here path) w :=
    rfl
  unfold loadFile at h
  rw [bind_of_ok _ hRead] at h
  cases hContent : w.tree.read w.here path with
  | error e =>
      rw [hContent] at h
      cases h
  | ok src =>
      rw [hContent] at h
      simp only at h
      cases hParse : Source.File.parse path src with
      | error e =>
          rw [hParse] at h
          cases h
      | ok f' =>
          rw [hParse] at h
          cases h
          exact ⟨rfl, Source.File.path_of_parse hParse, src,
            rfl, hParse⟩

/- By induction on the paths, as no file changes anything. -/
theorem holds_of_parseFiles
    {paths : List Bytes}
    {w w' : Workspace}
    {files : List Source.File}
    (hNames :
      ∀ path ∈ paths, path.endsWith sourceEnding = true)
    (h : parseFiles paths w = .ok files w') :
    w' = w ∧ ∀ f ∈ files, w.Holds f := by
  induction paths generalizing files w' with
  | nil =>
      cases h
      exact ⟨rfl, List.forall_mem_nil _⟩
  | cons path paths ih =>
      rcases exists_of_bind_ok h with ⟨file, w₁, hFile, hRest⟩
      rcases exists_of_bind_ok hRest with
        ⟨rest, w₂, hFiles, hEnd⟩
      rcases exists_of_loadFile hFile with
        ⟨rfl, rfl, src, hRead, hParse⟩
      rcases ih (fun p hMem =>
          hNames p (List.mem_cons_of_mem _ hMem)) hFiles with
        ⟨rfl, hHolds⟩
      cases hEnd
      refine ⟨rfl, List.forall_mem_cons.mpr ⟨?_, hHolds⟩⟩
      exact ⟨⟨src, hRead, hParse⟩,
        hNames _ List.mem_cons_self⟩

/- Whatever is left without the generated files was read, too. -/
theorem holds_of_loadFiles
    {paths : List Bytes}
    {w w' : Workspace}
    {files : List Source.File}
    (hNames :
      ∀ path ∈ paths, path.endsWith sourceEnding = true)
    (h : loadFiles paths w = .ok files w') :
    ∀ f ∈ files, w.Holds f := by
  rcases exists_of_bind_ok h with ⟨all, w₁, hAll, hSources⟩
  rcases holds_of_parseFiles hNames hAll with ⟨rfl, hHolds⟩
  cases hKept : all.filter fun f => !f.generated with
  | nil =>
      rw [hKept] at hSources
      cases hSources
  | cons first rest =>
      rw [hKept] at hSources
      cases hSources
      rw [← hKept]
      intro f hMem
      exact hHolds f (List.mem_filter.mp hMem).1

/- The loader is trusted for the names, not for the contents. -/
theorem holds_of_loadPackages
    [Packages.Loader]
    (hLoader : Packages.FindsSources)
    {patterns : List Bytes}
    {w w' : Workspace}
    {files : List Source.File}
    (h : loadPackages w.here patterns w = .ok files w') :
    ∀ f ∈ files, w.Holds f := by
  unfold loadPackages at h
  rw [bind_of_ok _ (get_eq w)] at h
  cases hLoad :
      Packages.Loader.load w.tree w.here patterns with
  | error e =>
      rw [hLoad] at h
      cases h
  | ok paths =>
      rw [hLoad] at h
      exact holds_of_loadFiles
        (fun path => hLoader.named hLoad) h

/-
  Paths that are given are taken as files only if they end
  right.
-/
theorem holds_of_sourcesFor
    [Packages.Loader]
    (hLoader : Packages.FindsSources)
    {o : Options}
    {w w' : Workspace}
    {files : List Source.File}
    (h : sourcesFor o w = .ok files w') :
    ∀ f ∈ files, w.Holds f := by
  unfold sourcesFor at h
  rw [bind_of_ok _ (get_eq w)] at h
  cases hFiles : o.areFiles with
  | true =>
      simp only [hFiles, if_true] at h
      rcases exists_of_bind_ok h with ⟨all, w₁, hAll, hEnd⟩
      rcases exists_of_bind_ok hEnd with ⟨_, w₂, _, hSame⟩
      cases hSame
      refine holds_of_loadFiles ?_ hAll
      intro path hMem
      unfold Options.areFiles at hFiles
      simp only [Bool.and_eq_true] at hFiles
      exact List.all_eq_true.mp hFiles.2 path hMem
  | false =>
      simp only [hFiles, Bool.false_eq_true, if_false] at h
      rcases exists_of_bind_ok h with ⟨all, w₁, hAll, hEnd⟩
      rcases exists_of_bind_ok hEnd with ⟨_, w₂, _, hSame⟩
      cases hSame
      exact holds_of_loadPackages hLoader hAll

/- Reading settings first does not change what can be read. -/
theorem Holds.of_disk
    {w w' : Workspace}
    {f : Source.File}
    (hDisk : disk w' = disk w)
    (h : w'.Holds f) :
    w.Holds f := by
  simp only [disk, Prod.mk.injEq] at hDisk
  refine ⟨?_, h.named⟩
  rw [← hDisk.1, ← hDisk.2.1]
  exact h.parsed

------------------------------------------------------------
-- Preparation
------------------------------------------------------------

/- Settings are checked behind the options, not before. -/
theorem validate_of_settingsFor
    {o : Options}
    {w w' : Workspace}
    {s : Settings}
    (h : settingsFor o w = .ok s w') :
    s.validate = .ok () := by
  rcases exists_of_bind_ok h with ⟨read, w₁, _, hCheck⟩
  cases hValid : (o.override read).validate with
  | error e =>
      simp only [hValid] at hCheck
      cases hCheck
  | ok u =>
      simp only [hValid] at hCheck
      cases hCheck
      exact hValid

/- A task starts with valid settings and with what it has read. -/
theorem holds_of_prepare
    [Packages.Loader]
    (hLoader : Packages.FindsSources)
    {o : Options}
    {w w' : Workspace}
    {s : Settings}
    {files : List Source.File}
    (h : prepare o w = .ok (s, files) w') :
    s.validate = .ok () ∧ ∀ f ∈ files, w.Holds f := by
  rcases exists_of_bind_ok h with ⟨s', w₁, hSettings, hRest⟩
  rcases exists_of_bind_ok hRest with ⟨_, w₂, hLevel, hLoad⟩
  rcases exists_of_bind_ok hLoad with
    ⟨files', w₃, hSources, hEnd⟩
  cases hEnd
  have hFirst : disk (after (settingsFor o) w) = disk w :=
    keeps_settingsFor o w
  have hSecond := keeps_useLevel s w₁
  rw [after_of_ok hSettings] at hFirst
  rw [after_of_ok hLevel, hFirst] at hSecond
  refine ⟨validate_of_settingsFor hSettings, ?_⟩
  intro f hMem
  exact
    (holds_of_sourcesFor hLoader hSources f hMem).of_disk hSecond

end Workspace

end Namesake
