import Namesake.Path
import Namesake.Proofs.Text.Bytes

/-
  The parts of a path.  A path is everything up to its last
  slash followed by its last part, and cleaning it keeps some
  of its parts and joins them again.

  Main declarations:
    * `Path.names`
    * `Path.names_join`
    * `Path.upToSlash_append_base`
    * `Path.mem_foldl_push`
-/

namespace Namesake

namespace Path

------------------------------------------------------------
-- Names
------------------------------------------------------------

/- The parts of a path that are not empty. -/
def names
    (path : Bytes) : List Bytes :=
  (parts path).filter fun s => !s.isEmpty

/- A slash separates parts from parts. -/
theorem names_append_slash
    (path rest : Bytes) :
    names (path ++ separator :: rest) =
      names path ++ names rest := by
  simp [names, parts, List.splitOn_append_cons_self]

theorem names_of_not_mem
    {name : Bytes}
    (hSlash : separator ∉ name)
    (hName : name ≠ []) :
    names name = [name] := by
  simp [names, parts, List.splitOn_eq_singleton hSlash, hName]

/- Joining parts and taking the path apart gives them back. -/
theorem names_join
    {list : List Bytes}
    (h : ∀ name ∈ list, name ≠ [] ∧ separator ∉ name) :
    names (Bytes.join [separator] list) = list := by
  by_cases hNil : list = []
  · subst hNil
    rfl
  · have hSplit := List.splitOn_intercalate separator
      (fun name hMem => (h name hMem).2) hNil
    rw [names, parts, hSplit, List.filter_eq_self]
    intro name hMem
    simp [(h name hMem).1]

------------------------------------------------------------
-- The Last Slash
------------------------------------------------------------

/- The last slash splits a path in two. -/
theorem upToSlash_append_base
    (path : Bytes) :
    upToSlash path ++ base path = path := by
  unfold upToSlash base
  rw [← List.reverse_append, List.takeWhile_append_dropWhile,
    List.reverse_reverse]

theorem not_mem_base
    (path : Bytes) :
    separator ∉ base path := by
  intro hMem
  have hByte :=
    List.all_eq_true.mp List.all_takeWhile separator
      (List.mem_reverse.mp hMem)
  simp at hByte

/- What is up to a slash ends with it. -/
theorem upToSlash_eq
    (path : Bytes) :
    upToSlash path = [] ∨
      ∃ front, upToSlash path = front ++ [separator] := by
  unfold upToSlash
  cases hDrop : path.reverse.dropWhile (· ≠ separator) with
  | nil => exact Or.inl rfl
  | cons b rest =>
      have hByte :=
        List.head?_dropWhile_not (· ≠ separator) path.reverse
      have hSlash : b = separator := by
        rw [hDrop] at hByte
        simpa using hByte
      refine Or.inr ⟨rest.reverse, ?_⟩
      rw [List.reverse_cons, hSlash]

/- The last part of a path is its base, unless that is empty. -/
theorem names_upToSlash
    {path : Bytes}
    (hBase : base path ≠ []) :
    names path = names (upToSlash path) ++ [base path] := by
  have hLast := names_of_not_mem (not_mem_base path) hBase
  have hPath := upToSlash_append_base path
  rcases upToSlash_eq path with hFront | ⟨front, hFront⟩
  · rw [hFront, List.nil_append] at hPath
    rw [hPath] at hLast
    rw [hFront, hPath]
    exact hLast
  · have hNames :
        names path = names front ++ names (base path) := by
      rw [← names_append_slash, ← List.singleton_append,
        ← List.append_assoc, ← hFront, hPath]
    rw [hFront, names_append_slash, hNames, hLast]
    simp [names, parts]

/- Whether a path is absolute is seen in front of its base. -/
theorem isAbsolute_upToSlash
    (path : Bytes) :
    isAbsolute (upToSlash path) = isAbsolute path := by
  have hPath := upToSlash_append_base path
  have hBase := not_mem_base path
  cases hFront : upToSlash path with
  | cons b rest =>
      rw [hFront] at hPath
      rw [← hPath]
      rfl
  | nil =>
      rw [hFront, List.nil_append] at hPath
      rw [hPath] at hBase
      cases path with
      | nil => rfl
      | cons b rest =>
          have hByte := List.ne_of_not_mem_cons hBase
          simp [isAbsolute, hByte.symm]

/- An ending without a slash does not move the last slash. -/
theorem upToSlash_append
    {ending : Bytes}
    (path : Bytes)
    (h : separator ∉ ending) :
    upToSlash (path ++ ending) = upToSlash path := by
  unfold upToSlash
  rw [List.reverse_append, List.dropWhile_append_of_pos]
  intro b hMem
  have hByte : b ≠ separator := by
    rintro rfl
    exact h (List.mem_reverse.mp hMem)
  simpa using hByte

theorem base_append
    {ending : Bytes}
    (path : Bytes)
    (h : separator ∉ ending) :
    base (path ++ ending) = base path ++ ending := by
  unfold base
  rw [List.reverse_append, List.takeWhile_append_of_pos,
    List.reverse_append, List.reverse_reverse]
  intro b hMem
  have hByte : b ≠ separator := by
    rintro rfl
    exact h (List.mem_reverse.mp hMem)
  simpa using hByte

------------------------------------------------------------
-- Cleaning
------------------------------------------------------------

/- Cleaning takes only parts that are not empty. -/
theorem foldl_push_parts
    (rooted : Bool)
    (done : List Bytes)
    (path : Bytes) :
    (parts path).foldl (push rooted) done =
      (names path).foldl (push rooted) done := by
  unfold names
  generalize parts path = list
  induction list generalizing done with
  | nil => rfl
  | cons part list ih =>
      cases part with
      | nil => exact ih done
      | cons b s => exact ih (push rooted done (b :: s))

/- A step of cleaning adds at most the part, and never a dot. -/
theorem mem_push
    {rooted : Bool}
    {done : List Bytes}
    {part name : Bytes}
    (h : name ∈ push rooted done part) :
    name ∈ done ∨ name = part ∧ part ≠ utf8 "." := by
  unfold push at h
  split at h
  · exact Or.inl h
  · rename_i hPart
    simp only [Bool.or_eq_true, beq_iff_eq, not_or] at hPart
    split at h
    · split at h
      · split at h
        · cases h
        · exact Or.inr ⟨List.mem_singleton.mp h, hPart.2⟩
      · split at h
        · rcases List.mem_cons.mp h with h | h
          · exact Or.inr ⟨h, hPart.2⟩
          · exact Or.inl h
        · exact Or.inl (List.mem_cons_of_mem _ h)
    · rcases List.mem_cons.mp h with h | h
      · exact Or.inr ⟨h, hPart.2⟩
      · exact Or.inl h

/- A cleaned path has only parts of the path. -/
theorem mem_foldl_push
    {rooted : Bool}
    {done list : List Bytes}
    {name : Bytes}
    (h : name ∈ list.foldl (push rooted) done) :
    name ∈ done ∨ name ∈ list ∧ name ≠ utf8 "." := by
  induction list generalizing done with
  | nil => exact Or.inl h
  | cons part list ih =>
      rcases ih h with h | ⟨hMem, hDot⟩
      · rcases mem_push h with h | ⟨rfl, hDot⟩
        · exact Or.inl h
        · exact Or.inr ⟨List.mem_cons_self, hDot⟩
      · exact Or.inr ⟨List.mem_cons_of_mem part hMem, hDot⟩

/- The parts that are left when a path is cleaned. -/
def kept
    (path : Bytes) : List Bytes :=
  ((names path).foldl (push (isAbsolute path)) []).reverse

theorem mem_kept
    {path name : Bytes}
    (h : name ∈ kept path) :
    name ∈ names path := by
  rcases mem_foldl_push (List.mem_reverse.mp h) with h | h
  · cases h
  · exact h.1

/- What is kept is a proper name, which can be joined again. -/
theorem proper_of_mem_kept
    {path name : Bytes}
    (h : name ∈ kept path) :
    name ≠ [] ∧ separator ∉ name := by
  rcases List.mem_filter.mp (mem_kept h) with ⟨hPart, hName⟩
  exact ⟨by simpa using hName,
    (Bytes.mem_of_mem_splitOn hPart).1⟩

/- So nothing is lost when what is kept is joined. -/
theorem names_join_kept
    (path : Bytes) :
    names (Bytes.join [separator] (kept path)) = kept path := by
  refine names_join ?_
  intro name hMem
  exact proper_of_mem_kept hMem

/- The joined text is empty only if nothing is kept. -/
theorem join_kept_eq_nil_iff
    (path : Bytes) :
    Bytes.join [separator] (kept path) = [] ↔
      kept path = [] := by
  have hNames := names_join_kept path
  constructor
  · intro h
    rw [h] at hNames
    exact hNames.symm
  · intro h
    rw [h]
    rfl

/- The three forms of a cleaned path. -/
theorem clean_eq
    (path : Bytes) :
    clean path =
      if isAbsolute path then
        separator :: Bytes.join [separator] (kept path)
      else if kept path = [] then
        utf8 "."
      else
        Bytes.join [separator] (kept path) := by
  unfold clean
  simp only [foldl_push_parts, ← kept.eq_1,
    List.isEmpty_iff, join_kept_eq_nil_iff]

/-
  Cleaning does not turn a relative path into an absolute one,
  as no part that is kept starts with a slash.
-/
theorem isAbsolute_clean
    (path : Bytes) :
    isAbsolute (clean path) = isAbsolute path := by
  rw [clean_eq]
  cases isAbsolute path with
  | true => rfl
  | false =>
      rw [if_neg Bool.false_ne_true]
      split
      · rfl
      · cases hKept : kept path with
        | nil => rfl
        | cons name rest =>
            have hName : name ∈ kept path := by
              simp [hKept]
            rcases proper_of_mem_kept hName with
              ⟨hNil, hSlash⟩
            cases name with
            | nil => exact absurd rfl hNil
            | cons b s =>
                have hByte := List.ne_of_not_mem_cons hSlash
                cases rest <;>
                  simp [isAbsolute, hByte.symm]

/-
  Only a relative path of which nothing is kept gets a new
  part.
-/
theorem names_clean
    (path : Bytes) :
    names (clean path) = kept path ∨
      names (clean path) = [utf8 "."] ∧ kept path = [] := by
  have hNames := names_join_kept path
  rw [clean_eq]
  split
  · rw [← List.nil_append (separator :: _), names_append_slash,
      hNames]
    exact Or.inl rfl
  · split
    · rename_i hNone
      exact Or.inr ⟨rfl, hNone⟩
    · exact Or.inl hNames

/- Even the empty path is cleaned to something. -/
theorem clean_ne_nil
    (path : Bytes) :
    clean path ≠ [] := by
  rw [clean_eq]
  split
  · exact List.cons_ne_nil _ _
  · split
    · decide
    · rename_i hSome
      exact fun h => hSome ((join_kept_eq_nil_iff path).mp h)

/- Cleaning writes slashes and a dot, and else copies. -/
theorem mem_of_mem_clean
    {path : Bytes}
    {b : UInt8}
    (h : b ∈ clean path) :
    b = separator ∨ b = 0x2e ∨ b ∈ path := by
  have hJoin
      (h : b ∈ Bytes.join [separator] (kept path)) :
      b = separator ∨ b = 0x2e ∨ b ∈ path := by
    rcases Bytes.mem_of_mem_join h with h | ⟨name, hMem, hByte⟩
    · exact Or.inl (List.mem_singleton.mp h)
    · have hPart := (List.mem_filter.mp (mem_kept hMem)).1
      exact Or.inr
        (Or.inr ((Bytes.mem_of_mem_splitOn hPart).2 b hByte))
  rw [clean_eq] at h
  split at h
  · rcases List.mem_cons.mp h with h | h
    · exact Or.inl h
    · exact hJoin h
  · split at h
    · exact Or.inr (Or.inl (List.mem_singleton.mp h))
    · exact hJoin h

/- So it does not spoil a path with a zero byte. -/
theorem zero_not_mem_clean
    {path : Bytes}
    (h : 0 ∉ path) :
    0 ∉ clean path := by
  intro hZero
  rcases mem_of_mem_clean hZero with hMem | hMem | hMem
  · cases hMem
  · cases hMem
  · exact h hMem

/- A name at the end of a path is kept behind what is kept. -/
theorem kept_of_base
    {path : Bytes}
    (hBase : base path ≠ [])
    (hDot : base path ≠ utf8 ".")
    (hUp : base path ≠ utf8 "..") :
    kept path =
      ((names (upToSlash path)).foldl
          (push (isAbsolute path)) []).reverse ++
        [base path] := by
  rw [kept, names_upToSlash hBase, List.foldl_append,
    List.foldl_cons, List.foldl_nil, push.eq_def]
  simp [hBase, hDot, hUp]

/- A cleaned path ends with a slash only if nothing is kept. -/
theorem getLast?_clean
    {path : Bytes}
    (h : kept path ≠ []) :
    (clean path).getLast? ≠ some separator := by
  have hLast := List.dropLast_concat_getLast h
  rcases Bytes.exists_join_concat [separator]
      (kept path).dropLast ((kept path).getLast h) with
    ⟨front, hJoin⟩
  rcases proper_of_mem_kept (List.getLast_mem h) with
    ⟨hName, hSlash⟩
  rw [hLast] at hJoin
  have hEnd
      (front : Bytes) :
      (front ++ (kept path).getLast h).getLast? ≠
        some separator := by
    rw [List.getLast?_append,
      List.getLast?_eq_some_getLast hName, Option.some_or]
    intro hSame
    exact hSlash
      (Option.some.inj hSame ▸ List.getLast_mem hName)
  rw [clean_eq, if_neg h, hJoin]
  split
  · exact hEnd (separator :: front)
  · exact hEnd front

end Path

end Namesake
