import Namesake.FileTree
import Namesake.Proofs.Path

/-
  Where paths lead.  The place of the file that a path leads
  to depends on the directories alone, so that writing a file
  changes what is read at its own place and nowhere else.  The
  place is in the directory of the path, also if that is
  cleaned first, and this directory need not be made.

  Main declarations:
    * `FileTree.place?`
    * `FileTree.read_eq_ok_iff`
    * `FileTree.write_eq_ok_iff`
    * `FileTree.place?_of_dirs`
    * `FileTree.spot_clean`
    * `FileTree.exists_folder_of_place?`
    * `FileTree.place?_clean`
    * `FileTree.makeDirs_of_dir`
-/

namespace Namesake

namespace FileTree

------------------------------------------------------------
-- Contents
------------------------------------------------------------

/- Only the file that is written changes. -/
theorem file?_put
    (t : FileTree)
    (p q : Place)
    (content : Bytes) :
    (t.put p content).file? q =
      if q = p then some content else t.file? q := by
  unfold file? put
  split
  · rename_i hSame
    simp [hSame]
  · rename_i hOther
    have hFind :
        (t.files.filter fun f => f.1 != p).find?
            (fun f => f.1 == q) =
          t.files.find? fun f => f.1 == q := by
      rw [List.find?_filter]
      congr 1
      funext f
      by_cases hPlace : f.1 = q
      · simp [hPlace, hOther]
      · simp [hPlace]
    simp [Ne.symm hOther, hFind]

------------------------------------------------------------
-- Walking
------------------------------------------------------------

/- The place of a spot. -/
def Spot.place : Spot → Place
  | .dir p => p
  | .file p _ => p
  | .missing p => p

/- Is a spot a directory? -/
def Spot.isDir : Spot → Bool
  | .dir _ => true
  | _ => false

/- The directory that one part of a path leads to. -/
def enter?
    (t : FileTree)
    (dir : Place)
    (name : Bytes) : Option Place :=
  if name = utf8 "." then
    some dir
  else if name = utf8 ".." then
    some dir.dropLast
  else if name.length ≤ 255 ∧ t.isDir (dir ++ [name]) then
    some (dir ++ [name])
  else
    none

/- What a part that is no directory leads to. -/
def leaf
    (t : FileTree)
    (p : Place) : Spot :=
  match t.file? p with
  | some content => .file p content
  | none => .missing p

theorem place_leaf
    (t : FileTree)
    (p : Place) :
    (leaf t p).place = p := by
  unfold leaf
  cases t.file? p <;> rfl

/- A leaf is a file, or a place for one. -/
theorem isDir_leaf
    (t : FileTree)
    (p : Place) :
    (leaf t p).isDir = false := by
  unfold leaf
  cases t.file? p <;> rfl

theorem walk_of_enter?
    {t : FileTree}
    {dir d : Place}
    {name : Bytes}
    (rest : List Bytes)
    (h : t.enter? dir name = some d) :
    walk t dir (name :: rest) = walk t d rest := by
  unfold enter? at h
  rw [walk]
  simp only [beq_iff_eq]
  split at h
  · rename_i hDot
    cases h
    rw [if_pos hDot]
  · rename_i hDot
    rw [if_neg hDot]
    split at h
    · rename_i hUp
      cases h
      rw [if_pos hUp]
    · rename_i hUp
      rw [if_neg hUp]
      split at h
      · rename_i hDir
        cases h
        rw [if_neg (Nat.not_lt.mpr hDir.1), if_pos hDir.2]
      · cases h

/- Only the last part of a path may be no directory. -/
theorem walk_of_not_enter?
    {t : FileTree}
    {dir : Place}
    {name : Bytes}
    {rest : List Bytes}
    {s : Spot}
    (hEnter : t.enter? dir name = none) :
    walk t dir (name :: rest) = .ok s ↔
      rest = [] ∧ name.length ≤ 255 ∧
        s = leaf t (dir ++ [name]) := by
  unfold enter? at hEnter
  split at hEnter
  · cases hEnter
  · rename_i hDot
    split at hEnter
    · cases hEnter
    · rename_i hUp
      split at hEnter
      · cases hEnter
      · rename_i hDir
        rw [walk]
        simp only [beq_iff_eq]
        rw [if_neg hDot, if_neg hUp]
        by_cases hLong : 255 < name.length
        · simp [if_pos hLong, Nat.not_le.mpr hLong]
        · have hShort := Nat.not_lt.mp hLong
          rw [if_neg hLong,
            if_neg fun hIsDir => hDir ⟨hShort, hIsDir⟩]
          unfold leaf
          cases t.file? (dir ++ [name]) <;> cases rest <;>
            simp [hShort, eq_comm]

/- Which files there are does not matter for directories. -/
theorem enter?_of_dirs
    {t t' : FileTree}
    (hDirs : t'.dirs = t.dirs)
    (dir : Place)
    (name : Bytes) :
    t'.enter? dir name = t.enter? dir name := by
  have hIsDir : t'.isDir = t.isDir := by
    funext p
    rw [isDir, isDir, hDirs]
  unfold enter?
  rw [hIsDir]

/- Every part of a path to a directory is a directory. -/
theorem exists_enter?_of_walk_dir
    {t : FileTree}
    {dir d : Place}
    {name : Bytes}
    {rest : List Bytes}
    (h : walk t dir (name :: rest) = .ok (.dir d)) :
    ∃ next,
      t.enter? dir name = some next ∧
        walk t next rest = .ok (.dir d) := by
  cases hEnter : t.enter? dir name with
  | some next =>
      rw [walk_of_enter? _ hEnter] at h
      exact ⟨next, rfl, h⟩
  | none =>
      have hLeaf := ((walk_of_not_enter? hEnter).mp h).2.2
      have hDir := isDir_leaf t (dir ++ [name])
      rw [← hLeaf] at hDir
      cases hDir

/- A walk to a directory can be continued. -/
theorem walk_append_of_dir
    {t : FileTree}
    {dir d : Place}
    {names : List Bytes}
    (rest : List Bytes)
    (h : walk t dir names = .ok (.dir d)) :
    walk t dir (names ++ rest) = walk t d rest := by
  induction names generalizing dir with
  | nil =>
      cases h
      rfl
  | cons name names ih =>
      rcases exists_enter?_of_walk_dir h with
        ⟨next, hEnter, hRest⟩
      rw [List.cons_append, walk_of_enter? _ hEnter]
      exact ih hRest

/- Every part of a path but the last is a directory. -/
theorem exists_dir_of_walk_append
    {t : FileTree}
    {dir : Place}
    {names rest : List Bytes}
    {s : Spot}
    (hRest : rest ≠ [])
    (h : walk t dir (names ++ rest) = .ok s) :
    ∃ d,
      walk t dir names = .ok (.dir d) ∧
        walk t d rest = .ok s := by
  induction names generalizing dir with
  | nil => exact ⟨dir, rfl, h⟩
  | cons name names ih =>
      rw [List.cons_append] at h
      cases hEnter : t.enter? dir name with
      | some next =>
          rw [walk_of_enter? _ hEnter] at h ⊢
          exact ih h
      | none =>
          have hNil := ((walk_of_not_enter? hEnter).mp h).1
          exact absurd (List.append_eq_nil_iff.mp hNil).2 hRest

/- Where a walk leads depends on the directories alone. -/
theorem exists_walk_of_dirs
    {t t' : FileTree}
    (hDirs : t'.dirs = t.dirs)
    {dir : Place}
    {names : List Bytes}
    {s : Spot}
    (h : walk t dir names = .ok s) :
    ∃ s',
      walk t' dir names = .ok s' ∧
        s' = if s.isDir then s else leaf t' s.place := by
  induction names generalizing dir with
  | nil =>
      cases h
      exact ⟨.dir dir, rfl, rfl⟩
  | cons name names ih =>
      have hSame := enter?_of_dirs hDirs dir name
      cases hEnter : t.enter? dir name with
      | some next =>
          rw [walk_of_enter? _ hEnter] at h
          rw [walk_of_enter? _ (hSame.trans hEnter)]
          exact ih h
      | none =>
          rcases (walk_of_not_enter? hEnter).mp h with
            ⟨hRest, hShort, hLeaf⟩
          refine ⟨leaf t' (dir ++ [name]), ?_, ?_⟩
          · exact (walk_of_not_enter? (hSame.trans hEnter)).mpr
              ⟨hRest, hShort, rfl⟩
          · rw [hLeaf, isDir_leaf, place_leaf]
            rfl

------------------------------------------------------------
-- Paths
------------------------------------------------------------

/- The directory in which a path starts. -/
def origin
    (here : Place)
    (path : Bytes) : Place :=
  if Path.isAbsolute path then [] else here

/-
  A path that leads somewhere is not empty, holds no zero byte
  and can be walked.
-/
theorem spot_eq_ok_iff
    {t : FileTree}
    {here : Place}
    {path : Bytes}
    {s : Spot} :
    t.spot here path = .ok s ↔
      path ≠ [] ∧ 0 ∉ path ∧
        walk t (origin here path) (steps path) = .ok s := by
  unfold spot origin
  cases path with
  | nil => simp
  | cons b rest =>
      by_cases hNul : 0 ∈ b :: rest
      · simp [hNul]
      · simp [hNul]

/- The place of the file that a path leads to or would make. -/
def place?
    (t : FileTree)
    (here : Place)
    (path : Bytes) : Option Place :=
  match t.spot here path with
  | .ok (.file p _) => some p
  | .ok (.missing p) => some p
  | _ => none

theorem place?_eq_some_iff
    {t : FileTree}
    {here p : Place}
    {path : Bytes} :
    t.place? here path = some p ↔
      t.spot here path = .ok (leaf t p) := by
  have hLeaf
      {s : Spot}
      (hSpot : t.spot here path = .ok s)
      (hFile : s.isDir = false) :
      s = leaf t s.place := by
    have hWalk := (spot_eq_ok_iff.mp hSpot).2.2
    rcases exists_walk_of_dirs (rfl : t.dirs = t.dirs) hWalk with
      ⟨s', hSame, hEq⟩
    rw [hWalk] at hSame
    cases hSame
    rw [hFile] at hEq
    exact hEq
  constructor
  · intro h
    unfold place? at h
    split at h
    · rename_i q content hSpot
      cases h
      rw [hSpot, hLeaf hSpot rfl]
      rfl
    · rename_i q hSpot
      cases h
      rw [hSpot, hLeaf hSpot rfl]
      rfl
    · cases h
  · intro h
    unfold place?
    rw [h]
    unfold leaf
    cases t.file? p <;> rfl

/- The place of a file depends on the directories alone. -/
theorem place?_of_dirs
    {t t' : FileTree}
    (hDirs : t'.dirs = t.dirs)
    (here : Place)
    (path : Bytes) :
    t'.place? here path = t.place? here path := by
  have hKeeps
      {t t' : FileTree}
      (hDirs : t'.dirs = t.dirs)
      {p : Place}
      (h : t.place? here path = some p) :
      t'.place? here path = some p := by
    rw [place?_eq_some_iff, spot_eq_ok_iff] at h ⊢
    rcases exists_walk_of_dirs hDirs h.2.2 with
      ⟨s', hWalk, hLeaf⟩
    rw [isDir_leaf, place_leaf, if_neg Bool.false_ne_true]
      at hLeaf
    exact ⟨h.1, h.2.1, hLeaf ▸ hWalk⟩
  exact Option.ext fun p => ⟨hKeeps hDirs.symm, hKeeps hDirs⟩

/- Files that come and go do not hide a directory. -/
theorem spot_dir_of_dirs
    {t t' : FileTree}
    (hDirs : t'.dirs = t.dirs)
    {here d : Place}
    {path : Bytes}
    (h : t.spot here path = .ok (.dir d)) :
    t'.spot here path = .ok (.dir d) := by
  rw [spot_eq_ok_iff] at h ⊢
  rcases exists_walk_of_dirs hDirs h.2.2 with
    ⟨s', hWalk, rfl⟩
  exact ⟨h.1, h.2.1, hWalk⟩

------------------------------------------------------------
-- Reading and Writing
------------------------------------------------------------

/- What is read is the file at the place of the path. -/
theorem read_eq_ok_iff
    {t : FileTree}
    {here : Place}
    {path content : Bytes} :
    t.read here path = .ok content ↔
      ∃ p,
        t.place? here path = some p ∧
          t.file? p = some content := by
  constructor
  · intro h
    unfold read at h
    split at h
    · rename_i p content' hSpot
      cases h
      have hPlace : t.place? here path = some p := by
        rw [place?, hSpot]
      refine ⟨p, hPlace, ?_⟩
      rw [place?_eq_some_iff, hSpot, leaf] at hPlace
      cases hFile : t.file? p with
      | none => simp [hFile] at hPlace
      | some c =>
          simp only [hFile, Except.ok.injEq, Spot.file.injEq,
            true_and] at hPlace
          rw [hPlace]
    · cases h
    · cases h
    · cases h
  · rintro ⟨p, hPlace, hFile⟩
    rw [place?_eq_some_iff, leaf, hFile] at hPlace
    rw [read, hPlace]

/- What is written is put at that place. -/
theorem write_eq_ok_iff
    {t t' : FileTree}
    {here : Place}
    {path content : Bytes} :
    t.write here path content = .ok t' ↔
      ∃ p,
        t.place? here path = some p ∧
          t' = t.put p content := by
  unfold write place?
  cases t.spot here path with
  | error cause => simp
  | ok s => cases s <;> simp [eq_comm]

/- A directory that exists need not be made. -/
theorem makeDirs_of_dir
    {t : FileTree}
    {here d : Place}
    {path : Bytes}
    (h : t.spot here path = .ok (.dir d)) :
    t.makeDirs here path = .ok t := by
  unfold makeDirs
  cases hPath : path with
  | nil =>
      rw [hPath] at h
      cases h
  | cons b rest =>
      rw [← hPath, hPath, List.length_cons, ← hPath,
        makeDirsFrom, h]

------------------------------------------------------------
-- Directories of Paths
------------------------------------------------------------

/- One step of cleaning keeps where the parts lead. -/
theorem walk_push
    {t : FileTree}
    {rooted : Bool}
    {start d d' : Place}
    {done : List Bytes}
    {part : Bytes}
    (hRooted : rooted = true → start = [])
    (hDots : utf8 "." ∉ done)
    (hPart : part ≠ [])
    (hDone : walk t start done.reverse = .ok (.dir d))
    (hEnter : t.enter? d part = some d') :
    walk t start (Path.push rooted done part).reverse =
      .ok (.dir d') := by
  have hCons :
      walk t start (part :: done).reverse = .ok (.dir d') := by
    rw [List.reverse_cons, walk_append_of_dir _ hDone,
      walk_of_enter? _ hEnter, walk]
  unfold enter? at hEnter
  unfold Path.push
  have hEmpty : part.isEmpty = false := by
    simpa using hPart
  simp only [hEmpty, Bool.false_or, beq_iff_eq]
  split
  · rename_i hDot
    rw [if_pos hDot] at hEnter
    cases hEnter
    exact hDone
  · rename_i hDot
    rw [if_neg hDot] at hEnter
    split
    · rename_i hUp
      rw [if_pos hUp] at hEnter
      cases hEnter
      cases done with
      | nil =>
          cases hDone
          cases rooted with
          | true =>
              rw [hRooted rfl]
              rfl
          | false => exact hCons
      | cons last rest =>
          simp only
          split
          · exact hCons
          · rename_i hLast
            rw [List.reverse_cons] at hDone
            rcases exists_dir_of_walk_append
                (List.cons_ne_nil last []) hDone with
              ⟨d₀, hRest, hOne⟩
            rcases exists_enter?_of_walk_dir hOne with
              ⟨next, hProper, hSame⟩
            have hDot : last ≠ utf8 "." := by
              rintro rfl
              exact hDots List.mem_cons_self
            unfold enter? at hProper
            rw [if_neg hDot, if_neg hLast] at hProper
            split at hProper
            · cases hProper
              cases hSame
              rw [List.dropLast_concat]
              exact hRest
            · cases hProper
    · exact hCons

/- The parts that cleaning leaves lead where all parts led. -/
theorem walk_foldl_push
    {t : FileTree}
    {rooted : Bool}
    {start d d' : Place}
    {done list : List Bytes}
    (hRooted : rooted = true → start = [])
    (hDots : utf8 "." ∉ done)
    (hParts : ∀ part ∈ list, part ≠ [])
    (hDone : walk t start done.reverse = .ok (.dir d))
    (hList : walk t d list = .ok (.dir d')) :
    walk t start
        (list.foldl (Path.push rooted) done).reverse =
      .ok (.dir d') := by
  induction list generalizing done d with
  | nil =>
      cases hList
      exact hDone
  | cons part list ih =>
      rcases exists_enter?_of_walk_dir hList with
        ⟨next, hEnter, hRest⟩
      rw [List.foldl_cons]
      refine ih ?_ ?_ ?_ hRest
      · intro hDot
        rcases Path.mem_push hDot with hDot | ⟨hDot, hNot⟩
        · exact hDots hDot
        · exact hNot hDot.symm
      · intro p hMem
        exact hParts p (List.mem_cons_of_mem part hMem)
      · exact walk_push hRooted hDots
          (hParts part List.mem_cons_self) hDone hEnter

theorem walk_steps_of_dir
    {t : FileTree}
    {dir d : Place}
    {path : Bytes}
    (h : walk t dir (Path.names path) = .ok (.dir d)) :
    walk t dir (steps path) = .ok (.dir d) := by
  have hSteps :
      steps path =
        if path.getLast? == some Path.separator then
          Path.names path ++ [utf8 "."]
        else
          Path.names path :=
    rfl
  rw [hSteps]
  split
  · rw [walk_append_of_dir _ h]
    rfl
  · exact h

/- A cleaned path leads to the same directory. -/
theorem spot_clean
    {t : FileTree}
    {here d : Place}
    {path : Bytes}
    (hNul : 0 ∉ path)
    (h :
      walk t (origin here path) (Path.names path) =
        .ok (.dir d)) :
    t.spot here (Path.clean path) = .ok (.dir d) := by
  have hKept :
      walk t (origin here path) (Path.kept path) =
        .ok (.dir d) := by
    refine walk_foldl_push ?_ List.not_mem_nil ?_ rfl h
    · intro hRooted
      rw [origin, if_pos hRooted]
    · intro part hMem
      simpa using (List.mem_filter.mp hMem).2
  have hNames :
      walk t (origin here path)
          (Path.names (Path.clean path)) =
        .ok (.dir d) := by
    rcases Path.names_clean path with hSame | ⟨hDot, hNone⟩
    · rw [hSame]
      exact hKept
    · rw [hNone] at hKept
      rw [hDot]
      exact hKept
  have hOrigin :
      origin here (Path.clean path) = origin here path := by
    rw [origin, Path.isAbsolute_clean, origin]
  rw [spot_eq_ok_iff]
  refine ⟨Path.clean_ne_nil path,
    Path.zero_not_mem_clean hNul, ?_⟩
  rw [hOrigin]
  exact walk_steps_of_dir hNames

/- A cleaned path is walked along the parts that are kept. -/
theorem steps_clean
    {path : Bytes}
    (h : Path.kept path ≠ []) :
    steps (Path.clean path) = Path.kept path := by
  have hNames :
      Path.names (Path.clean path) = Path.kept path := by
    rcases Path.names_clean path with hSame | ⟨_, hNone⟩
    · exact hSame
    · exact absurd hNone h
  have hLast := Path.getLast?_clean h
  rw [← hNames]
  simp [steps, hLast, Path.names]

theorem steps_of_base_eq_nil
    {path : Bytes}
    (hPath : path ≠ [])
    (hBase : Path.base path = []) :
    steps path = Path.names path ++ [utf8 "."] := by
  have hFront := Path.upToSlash_append_base path
  rw [hBase, List.append_nil] at hFront
  rcases Path.upToSlash_eq path with hNone | ⟨front, hSlash⟩
  · rw [hNone] at hFront
    exact absurd hFront.symm hPath
  · have hLast : path.getLast? = some Path.separator := by
      rw [← hFront, hSlash, List.getLast?_concat]
    simp [steps, hLast, Path.names]

/- The last step of a path is its base. -/
theorem steps_of_base_ne_nil
    {path : Bytes}
    (hBase : Path.base path ≠ []) :
    steps path =
      Path.names (Path.upToSlash path) ++ [Path.base path] := by
  have hLast : path.getLast? ≠ some Path.separator := by
    intro hSlash
    rw [← Path.upToSlash_append_base path, List.getLast?_append,
      List.getLast?_eq_some_getLast hBase, Option.some_or,
      ← List.getLast?_eq_some_getLast hBase] at hSlash
    exact Path.not_mem_base path
      (List.mem_of_getLast? hSlash)
  have hSteps : steps path = Path.names path := by
    simp [steps, hLast, Path.names]
  rw [hSteps, Path.names_upToSlash hBase]

/-
  A path to a file ends with a name that is no directory, and
  what is before it leads to one.
-/
theorem exists_front_of_place?
    {t : FileTree}
    {here p : Place}
    {path : Bytes}
    (h : t.place? here path = some p) :
    0 ∉ path ∧
      Path.base path ≠ [] ∧
      ∃ d,
        walk t (origin here path)
            (Path.names (Path.upToSlash path)) =
          .ok (.dir d) ∧
        t.enter? d (Path.base path) = none ∧
        (Path.base path).length ≤ 255 ∧
        p = d ++ [Path.base path] := by
  rw [place?_eq_some_iff, spot_eq_ok_iff] at h
  rcases h with ⟨hPath, hNul, hWalk⟩
  have hNotDir
      {d : Place} :
      leaf t p ≠ .dir d := by
    intro hDir
    have hLeaf := isDir_leaf t p
    rw [hDir] at hLeaf
    cases hLeaf
  by_cases hBase : Path.base path = []
  · rw [steps_of_base_eq_nil hPath hBase] at hWalk
    rcases exists_dir_of_walk_append
        (List.cons_ne_nil _ _) hWalk with ⟨d, _, hDot⟩
    exact absurd (Except.ok.inj hDot).symm hNotDir
  · rw [steps_of_base_ne_nil hBase] at hWalk
    rcases exists_dir_of_walk_append
        (List.cons_ne_nil _ _) hWalk with ⟨d, hFront, hLast⟩
    refine ⟨hNul, hBase, d, hFront, ?_⟩
    cases hEnter : t.enter? d (Path.base path) with
    | some next =>
        rw [walk_of_enter? _ hEnter] at hLast
        exact absurd (Except.ok.inj hLast).symm hNotDir
    | none =>
        rcases (walk_of_not_enter? hEnter).mp hLast with
          ⟨_, hShort, hLeaf⟩
        have hPlace := congrArg Spot.place hLeaf
        rw [place_leaf, place_leaf] at hPlace
        exact ⟨rfl, hShort, hPlace⟩

/- A file is in the directory of its path. -/
theorem exists_folder_of_place?
    {t : FileTree}
    {here p : Place}
    {path : Bytes}
    (h : t.place? here path = some p) :
    ∃ d,
      t.spot here (Path.dir path) = .ok (.dir d) ∧
        p = d ++ [Path.base path] := by
  rcases exists_front_of_place? h with
    ⟨hNul, _, d, hFront, _, _, hPlace⟩
  have hOrigin :
      origin here (Path.upToSlash path) =
        origin here path := by
    rw [origin, Path.isAbsolute_upToSlash, origin]
  refine ⟨d, spot_clean ?_ (hOrigin ▸ hFront), hPlace⟩
  intro hZero
  rw [← Path.upToSlash_append_base path] at hNul
  exact hNul (List.mem_append_left _ hZero)

/- A cleaned path leads to the same file. -/
theorem place?_clean
    {t : FileTree}
    {here p : Place}
    {path : Bytes}
    (h : t.place? here path = some p) :
    t.place? here (Path.clean path) = some p := by
  rcases exists_front_of_place? h with
    ⟨hNul, hBase, d, hFront, hEnter, hShort, hPlace⟩
  have hDot : Path.base path ≠ utf8 "." := by
    intro hDot
    rw [hDot] at hEnter
    cases hEnter
  have hUp : Path.base path ≠ utf8 ".." := by
    intro hUp
    rw [hUp] at hEnter
    cases hEnter
  have hKept := Path.kept_of_base hBase hDot hUp
  have hSome : Path.kept path ≠ [] := by
    simp [hKept]
  have hWalk :
      walk t (origin here path) (Path.kept path) =
        .ok (leaf t p) := by
    rw [hKept, walk_append_of_dir (d := d)]
    · rw [walk_of_not_enter? hEnter, hPlace]
      exact ⟨rfl, hShort, rfl⟩
    · refine walk_foldl_push ?_ List.not_mem_nil ?_ rfl hFront
      · intro hRooted
        rw [origin, if_pos hRooted]
      · intro part hMem
        simpa using (List.mem_filter.mp hMem).2
  have hOrigin :
      origin here (Path.clean path) = origin here path := by
    rw [origin, Path.isAbsolute_clean, origin]
  rw [place?_eq_some_iff, spot_eq_ok_iff, hOrigin]
  refine ⟨Path.clean_ne_nil path,
    Path.zero_not_mem_clean hNul, ?_⟩
  rw [steps_clean hSome]
  exact hWalk

/- What cannot be reached is not there. -/
theorem isThere_of_error
    {t : FileTree}
    {here : Place}
    {path : Bytes}
    {cause : Cause}
    (h : t.spot here path = .error cause) :
    t.isThere here path = false := by
  rw [isThere, h]

/-
  A path at which nothing is seen leads nowhere, if there is a
  file where the cleaned path leads.
-/
theorem exists_cause_of_file?
    {t : FileTree}
    {here p : Place}
    {path content : Bytes}
    (hThere : t.isThere here path = false)
    (hPlace : t.place? here (Path.clean path) = some p)
    (hFile : t.file? p = some content) :
    ∃ cause, t.spot here path = .error cause := by
  unfold isThere at hThere
  split at hThere
  · rename_i q hMissing
    have hSame : t.place? here path = some q := by
      rw [place?, hMissing]
    have hLeaf := place?_eq_some_iff.mp hSame
    rw [place?_clean hSame] at hPlace
    cases hPlace
    rw [hMissing, leaf, hFile] at hLeaf
    cases hLeaf
  · cases hThere
  · rename_i cause hSpot
    exact ⟨cause, hSpot⟩

end FileTree

end Namesake
