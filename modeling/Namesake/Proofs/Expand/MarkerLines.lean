import Namesake.Marker
import Namesake.Proofs.Text.Bytes

/-
  What the lines of a marker say.  Without the slashes and the
  space they are the lines of the marker's text, from which
  only the blanks at the ends of lines are missing; nothing
  else is lost, whatever bytes a version or a note holds.

  Main declarations:
    * `Bytes.trimLines`
    * `Bytes.join_map_trimRight_lines`
    * `Deprecation.uncommented_commentLine`
    * `Deprecation.markerLines_encode_markerText`
-/

namespace Namesake

------------------------------------------------------------
-- Blanks at Line Ends
------------------------------------------------------------

namespace Bytes

variable {p : UInt8 → Bool}

/- Is there nothing but bytes of `p` before the end of the line? -/
def endsLine
    (p : UInt8 → Bool) : Bytes → Bool
  | [] => true
  | b :: s => b == 0x0a || (p b && endsLine p s)

/- The text without the bytes of `p` that end its lines. -/
def trimLines
    (p : UInt8 → Bool) : Bytes → Bytes
  | [] => []
  | b :: s =>
      if p b && endsLine p s then
        trimLines p s
      else
        b :: trimLines p s

/- A byte that is not trimmed keeps everything before it. -/
theorem trimRight_append_cons
    {b : UInt8}
    (front s : Bytes)
    (hByte : p b = false) :
    trimRight p (front ++ b :: s) =
      front ++ b :: trimRight p s := by
  induction front with
  | nil => exact trimRight_cons s hByte
  | cons c front ih =>
      rw [List.cons_append, trimRight_cons_eq, ih]
      simp

/- What is left of a text does not end with a trimmed byte. -/
theorem getLast?_trimRight
    {s : Bytes}
    {b : UInt8}
    (h : (trimRight p s).getLast? = some b) :
    p b = false := by
  rw [trimRight_eq_rdropWhile] at h
  rcases List.getLast?_eq_some_iff.mp h with ⟨front, hKept⟩
  have hLast := List.rdropWhile_last_not p s (by simp [hKept])
  simpa [hKept] using hLast

theorem not_mem_trimRight
    {s : Bytes}
    {b : UInt8}
    (h : b ∉ s) :
    b ∉ trimRight p s := by
  rw [trimRight_eq_rdropWhile]
  intro hMem
  exact h ((List.rdropWhile_prefix p s).subset hMem)

theorem lines_cons
    {b : UInt8}
    {s piece : Bytes}
    {pieces : List Bytes}
    (hByte : b ≠ 0x0a)
    (hLines : s.lines = piece :: pieces) :
    lines (b :: s) = (b :: piece) :: pieces := by
  unfold lines at hLines ⊢
  rw [List.splitOn_cons_eq_if_modifyHead, hLines]
  simp [hByte]

theorem exists_lines_eq_cons
    (s : Bytes) :
    ∃ piece pieces, s.lines = piece :: pieces :=
  List.exists_cons_of_ne_nil (List.splitOn_ne_nil 0x0a s)

/- The blanks before a line end are those of the first line. -/
theorem endsLine_iff
    {s piece : Bytes}
    {pieces : List Bytes}
    (hLines : s.lines = piece :: pieces) :
    endsLine p s = true ↔ trimRight p piece = [] := by
  induction s generalizing piece pieces with
  | nil =>
      cases hLines
      exact ⟨fun _ => rfl, fun _ => rfl⟩
  | cons b s ih =>
      by_cases hByte : b = 0x0a
      · subst hByte
        cases hLines
        exact ⟨fun _ => rfl, fun _ => rfl⟩
      · rcases exists_lines_eq_cons s with
          ⟨first, rest, hRest⟩
        rw [lines_cons hByte hRest] at hLines
        cases hLines
        rw [trimRight_cons_eq]
        simp [endsLine, hByte, ih hRest]

/- Trimming every line is trimming before every line end. -/
theorem join_map_trimRight_lines
    (hLine : p 0x0a = false)
    (s : Bytes) :
    join [0x0a] (s.lines.map (trimRight p)) = trimLines p s := by
  induction s with
  | nil => rfl
  | cons b s ih =>
      rcases exists_lines_eq_cons s with
        ⟨piece, pieces, hLines⟩
      rw [hLines, List.map_cons] at ih
      by_cases hByte : b = 0x0a
      · subst hByte
        have hSplit : lines (0x0a :: s) = [] :: lines s :=
          rfl
        rw [hSplit, hLines, trimLines, hLine, ← ih]
        rfl
      · rw [lines_cons hByte hLines, List.map_cons,
          trimRight_cons_eq, trimLines, ← ih]
        by_cases hEnds :
            p b = true ∧ trimRight p piece = []
        · have hLast := (endsLine_iff hLines).mpr hEnds.2
          rw [if_pos hEnds, hEnds.1, hLast, hEnds.2]
          rfl
        · have hKept : ¬ (p b && endsLine p s) = true := by
            rw [Bool.and_eq_true, endsLine_iff hLines]
            exact hEnds
          rw [if_neg hEnds, if_neg hKept]
          exact List.intercalate_cons_cons_left

end Bytes

------------------------------------------------------------
-- Marker Lines
------------------------------------------------------------

namespace Deprecation

/- What a comment line says, without its slashes. -/
def uncommented
    (line : Bytes) : Bytes :=
  match (slashes ++ [0x20]).isPrefixOf? line with
  | some text => text
  | none => (slashes.isPrefixOf? line).getD line

/- A line of text with something in it but blanks. -/
structure IsMarkerText
    (text : Bytes) : Prop where
  ne_nil : text ≠ []
  oneLine : 0x0a ∉ text
  trimmed :
    ∀ b, text.getLast? = some b →
      b ≠ 0x20 ∧ b ≠ 0x09 ∧ b ≠ 0x0d

/- A comment line says its text up to the blanks at its end. -/
theorem uncommented_commentLine
    (line : Bytes) :
    uncommented (commentLine line) =
      Bytes.trimRight isTrailing line := by
  unfold commentLine
  cases Bytes.trimRight isTrailing line with
  | nil => rfl
  | cons b text =>
      have hDrop :
          (slashes ++ [0x20]).isPrefixOf?
            (slashes ++ [0x20] ++ b :: text) = some (b :: text) :=
        List.isPrefixOf?_eq_some_iff_append_eq.mpr rfl
      simp only [uncommented, List.isEmpty_cons,
        Bool.false_eq_true, if_false, hDrop]

theorem isMarkerText_commentLine
    {line : Bytes}
    (hLine : 0x0a ∉ line) :
    commentLine line = slashes ∨
      ∃ text,
        commentLine line = slashes ++ [0x20] ++ text ∧
          IsMarkerText text := by
  unfold commentLine
  by_cases hBlank : Bytes.trimRight isTrailing line = []
  · left
    simp [hBlank]
  · right
    refine ⟨Bytes.trimRight isTrailing line, ?_, hBlank,
      Bytes.not_mem_trimRight hLine, ?_⟩
    · simp [hBlank]
    · intro b hLast
      have hKept := Bytes.getLast?_trimRight hLast
      simp only [isTrailing, Bool.or_eq_false_iff,
        beq_eq_false_iff_ne] at hKept
      exact ⟨hKept.1.1, hKept.1.2, hKept.2⟩

/- The first line starts with the word, and a colon ends no line. -/
theorem exists_markerLines_eq
    (d : Deprecation) :
    ∃ text more,
      d.markerLines =
        (utf8 "// Deprecated:" ++ text) :: more := by
  have hWord : 0x0a ∉ utf8 "Deprecated: " := by
    decide +kernel
  have hColon : isTrailing 0x3a = false := rfl
  unfold markerLines markerText Bytes.lines
  rcases Bytes.splitOn_append_of_not_mem _ hWord with
    ⟨first, pieces, hSplit⟩
  rw [hSplit, List.map_cons]
  have hTrim :
      Bytes.trimRight isTrailing
          (utf8 "Deprecated: " ++ first) =
        utf8 "Deprecated" ++
          0x3a :: Bytes.trimRight isTrailing (0x20 :: first) :=
    Bytes.trimRight_append_cons (utf8 "Deprecated") _ hColon
  refine ⟨Bytes.trimRight isTrailing (0x20 :: first),
    pieces.map commentLine, ?_⟩
  rw [commentLine, hTrim]
  rfl

/-
  The lines of a marker are its text as a comment.  The first
  one starts with the word that marks a deprecation, every
  line is bare or has a text without blanks at its end, and
  the lines without slashes, joined again, are the text of the
  marker without the blanks at the ends of its lines.
-/
theorem markerLines_encode_markerText
    (d : Deprecation) :
    (∃ text more,
        d.markerLines =
          (utf8 "// Deprecated:" ++ text) :: more) ∧
      (∀ line ∈ d.markerLines,
        line = slashes ∨
          ∃ text,
            line = slashes ++ [0x20] ++ text ∧
              IsMarkerText text) ∧
      Bytes.join [0x0a] (d.markerLines.map uncommented) =
        Bytes.trimLines isTrailing d.markerText := by
  refine ⟨exists_markerLines_eq d, ?_, ?_⟩
  · intro line hMem
    rcases List.mem_map.mp hMem with ⟨text, hText, rfl⟩
    exact isMarkerText_commentLine
      (Bytes.mem_of_mem_splitOn hText).1
  · have hSay :
        uncommented ∘ commentLine =
          Bytes.trimRight isTrailing :=
      funext uncommented_commentLine
    rw [markerLines, List.map_map, hSay]
    exact Bytes.join_map_trimRight_lines rfl d.markerText

/- A line of blanks has nothing to say. -/
example :
    markerLines { note := some (utf8 "a \r\n\t\n b") } =
      [utf8 "// Deprecated: a", slashes, utf8 "//  b"] := by
  decide +kernel

end Deprecation

end Namesake
