import Mathlib.Data.List.TakeWhile
import Namesake.Marker
import Namesake.Proofs.Arguments.Exactness
import Namesake.Proofs.Scanner.Comments
import Namesake.Proofs.Scanner.Lexemes
import Namesake.Proofs.Text.Bytes

/-
  Markers as source text.  Every line of a marker is one line
  comment and nothing else, but a version or a note may hold
  what no source text may hold: NUL, a byte order mark or
  bytes that are no characters.

  Main declarations:
    * `Utf8.isSound_append_cons_iff`
    * `Bytes.isSound_iff_lines`
    * `Cursor.isSound_iff_skipWhile`
    * `Scanner.IsLoneComment`
    * `Scanner.isClean_iff_of_slashes`
    * `Deprecation.markerLines_are_comments_iff`
-/

namespace Namesake

------------------------------------------------------------
-- Sound Texts
------------------------------------------------------------

namespace Utf8

/- An ASCII byte splits a sound text into two. -/
theorem isSound_append_cons_iff
    {b : UInt8}
    (hPos : 0 < b)
    (hLow : b < 0x80)
    (s t : Bytes) :
    IsSound (s ++ b :: t) ↔ IsSound s ∧ IsSound t := by
  constructor
  · intro h
    fun_induction Bytes.glyphs s with
    | case1 s hNone =>
        have hs : s = [] := by
          by_contra hs
          exact Cursor.split?_ne_none hs hNone
        have hSplit :
            split? (b :: t) = some (.char (charOf b.toNat), t) := by
          simp only [split?, if_pos hLow]
        rw [hs, List.nil_append] at h
        rcases h.of_split? hSplit with ⟨_, _, _, _, hRest⟩
        rw [hs]
        exact ⟨IsSound.nil, hRest⟩
    | case2 s g rest hSplit ih =>
        have hs : s ≠ [] := by
          rintro rfl
          cases hSplit
        have hAppend :
            split? (s ++ b :: t) = some (g, rest ++ b :: t) := by
          rw [split?_append_ascii hs hLow t, hSplit]
          rfl
        rcases h.of_split? hAppend with
          ⟨c, hGlyph, hNul, hMark, hRest⟩
        rcases ih hRest with ⟨hLeft, hRight⟩
        refine ⟨?_, hRight⟩
        rw [eq_bytes_append_of_split? hSplit, hGlyph]
        exact IsSound.cons hNul hMark hLeft
  · rintro ⟨hs, ht⟩
    exact hs.append (ht.ascii hPos hLow)

/- The bytes of ASCII but NUL. -/
def IsAscii
    (w : Bytes) : Prop :=
  ∀ b ∈ w, 0 < b ∧ b < 0x80

instance
    (w : Bytes) :
    Decidable (IsAscii w) :=
  List.decidableBAll (fun b => 0 < b ∧ b < 0x80) w

theorem IsAscii.isSound
    {w : Bytes}
    (h : IsAscii w) :
    IsSound w := by
  induction w with
  | nil => exact IsSound.nil
  | cons b w ih =>
      have hByte := h b List.mem_cons_self
      have hRest := ih fun c hMem => h c (List.mem_cons_of_mem b hMem)
      exact hRest.ascii hByte.1 hByte.2

/- ASCII text in front of a text does not matter. -/
theorem isSound_ascii_append_iff
    {w : Bytes}
    (hAscii : IsAscii w)
    (s : Bytes) :
    IsSound (w ++ s) ↔ IsSound s := by
  induction w with
  | nil => exact Iff.rfl
  | cons b w ih =>
      have hByte := hAscii b List.mem_cons_self
      have hSplit :=
        isSound_append_cons_iff hByte.1 hByte.2 [] (w ++ s)
      rw [List.nil_append] at hSplit
      rw [List.cons_append, hSplit,
        ih fun c hMem => hAscii c (List.mem_cons_of_mem b hMem)]
      simp [IsSound.nil]

/- Nor does ASCII text behind it. -/
theorem isSound_append_ascii_iff
    {w : Bytes}
    (hAscii : IsAscii w)
    (s : Bytes) :
    IsSound (s ++ w) ↔ IsSound s := by
  cases w with
  | nil => rw [List.append_nil]
  | cons b w =>
      have hByte := hAscii b List.mem_cons_self
      have hRest : IsAscii w :=
        fun c hMem => hAscii c (List.mem_cons_of_mem b hMem)
      rw [isSound_append_cons_iff hByte.1 hByte.2]
      exact and_iff_left hRest.isSound

end Utf8

namespace Bytes

/- A text is sound if its lines are. -/
theorem isSound_iff_lines
    (s : Bytes) :
    Utf8.IsSound s ↔ ∀ line ∈ s.lines, Utf8.IsSound line := by
  unfold lines
  induction hLength : s.length using Nat.strongRecOn
    generalizing s with
  | ind n ih =>
      by_cases hMem : 0x0a ∈ s
      · rcases List.append_of_mem hMem with ⟨front, rest, rfl⟩
        have hBoth : (front ++ 0x0a :: rest).length =
            front.length + (rest.length + 1) := by
          rw [List.length_append, List.length_cons]
        have hFront := ih front.length (by omega) front rfl
        have hRest := ih rest.length (by omega) rest rfl
        rw [Utf8.isSound_append_cons_iff (by decide) (by decide),
          List.splitOn_append_cons_self, List.forall_mem_append, hFront, hRest]
      · rw [List.splitOn_eq_singleton hMem, List.forall_mem_singleton]

/- Blanks at the end of a line do not matter. -/
theorem isSound_trimRight_iff
    {p : UInt8 → Bool}
    (hAscii : ∀ b, p b = true → 0 < b ∧ b < 0x80)
    (s : Bytes) :
    Utf8.IsSound (trimRight p s) ↔ Utf8.IsSound s := by
  have hParts :
      trimRight p s ++ (s.reverse.takeWhile p).reverse = s :=
    List.rdropWhile_append_rtakeWhile
  have hBlank : Utf8.IsAscii (s.reverse.takeWhile p).reverse := by
    intro b hMem
    exact hAscii b (List.mem_takeWhile_imp (List.mem_reverse.mp hMem))
  conv_rhs => rw [← hParts]
  rw [Utf8.isSound_append_ascii_iff hBlank]

end Bytes

------------------------------------------------------------
-- Line Comments
------------------------------------------------------------

namespace Cursor

/-
  Behind the first byte of a text, a line is passed up to its
  end, and without a fault exactly if it is sound.
-/
theorem isSound_iff_skipWhile
    {c : Cursor}
    (hPos : 0 < c.offset)
    (hLine : 0x0a ∉ c.rest) :
    (c.skipWhile (· ≠ 0x0a)).1.rest = [] ∧
      (c.arrive ++ (c.skipWhile (· ≠ 0x0a)).2 = [] ↔
        Utf8.IsSound c.rest) := by
  fun_induction skipWhile (· ≠ 0x0a) c with
  | case1 c hRest =>
      refine ⟨hRest, ?_⟩
      simp [arrive, hRest, Utf8.split?, Utf8.IsSound.nil]
  | case2 c hRest hCode => exact absurd hCode (code?_ne_none hRest)
  | case3 c hRest n hCode hp r ih =>
      rcases exists_split?_of_code? hCode with
        ⟨g, rest, hSplit, hGlyph⟩
      have hWide : c.isWide = false := isWide_eq_false hPos
      have hPasses := passes_next hSplit hWide
      have hBytes := Utf8.eq_bytes_append_of_split? hSplit
      have hNext : c.next.rest = rest := by
        rw [hPasses.rest] at hBytes
        exact List.append_cancel_left hBytes
      have hLater : 0x0a ∉ c.next.rest := by
        intro hMem
        apply hLine
        rw [hPasses.rest]
        exact List.mem_append_right _ hMem
      rcases ih (hPasses.offset_pos hPos) hLater with ⟨hEnd, hIff⟩
      refine ⟨hEnd, ?_⟩
      rw [List.append_eq_nil_iff, hIff, hNext]
      constructor
      · rintro ⟨hArrive, hSound⟩
        rcases exists_char_of_arrive hSplit hArrive with ⟨ch, rfl⟩
        simp only [arrive, hSplit] at hArrive
        rw [hBytes]
        refine Utf8.IsSound.cons ?_ ?_ hSound
        · rintro hNul
          simp [hNul] at hArrive
        · rintro hMark
          simp [hMark, hPos] at hArrive
      · intro hSound
        rcases hSound.of_split? hSplit with ⟨_, _, _, _, hRest⟩
        exact ⟨arrive_of_isSound hSound, hRest⟩
  | case4 c hRest n hCode hp =>
      -- only a line feed has its code
      exfalso
      have hEnd : n = 0x0a := by
        simpa using hp
      rcases exists_split?_of_code? hCode with
        ⟨g, rest, hSplit, hGlyph⟩
      rcases Utf8.eq_cons_of_code_lt hSplit (by omega) with
        ⟨b, hByte, _, hHead⟩
      have hFeed : b = 0x0a := by
        apply UInt8.toNat_inj.mp
        rw [hByte, hGlyph, hEnd]
        rfl
      apply hLine
      rw [hHead, hFeed]
      exact List.mem_cons_self

end Cursor

namespace Scanner

open Cursor

/-
  The text is one line comment and nothing else: the only
  token but the end of the text is a comment, which reaches
  from the first byte to the last and holds no line mark.
-/
def IsLoneComment
    (line : Bytes) : Prop :=
  line.startsWith slashes = true ∧
    ∃ t e,
      tokens line = [t, e] ∧
        t.token = ⟨.comment, 0, Comment.text line⟩ ∧
        t.stop = line.length ∧ t.mark = none ∧
        e.token.kind = .eof

/- The bytes behind the slashes do not start a line mark. -/
def IsUnmarked
    (w : Bytes) : Prop :=
  (utf8 "line ").isPrefixOf? w = none

/- The whole line is a comment. -/
theorem comment_of_line
    {w : Bytes}
    (hLine : 0x0a ∉ w) :
    let p := comment (ofText (0x2f :: 0x2f :: w))
    p.text = 0x2f :: 0x2f :: w ∧
      p.cursor.rest = [] ∧
        p.cursor.offset = (0x2f :: 0x2f :: w).length ∧
          (p.faults = [] ↔ Utf8.IsSound w) := by
  intro p
  have hBlock :
      (ofText (0x2f :: 0x2f :: w)).rest.startsWith [0x2f, 0x2a] =
        false := by
    simp [ofText, List.isPrefixOf_cons_cons]
  have hTail :=
    isSound_iff_skipWhile (c := (ofText (0x2f :: 0x2f :: w)).skip 2)
      (Nat.zero_lt_succ 1) hLine
  have hEnd : p.cursor.rest = [] := by
    simp only [p, comment, hBlock, Bool.false_eq_true, if_false]
    exact hTail.1
  have hPasses := (passes_comment
    (c := ofText (0x2f :: 0x2f :: w)) rfl).1
  have hText : p.text = 0x2f :: 0x2f :: w := by
    have hRest := hPasses.rest
    rw [hEnd, List.append_nil] at hRest
    exact hRest.symm
  refine ⟨hText, hEnd, ?_, ?_⟩
  · have hOffset := hPasses.offset
    rw [hText] at hOffset
    exact hOffset.trans (Nat.zero_add _)
  · simp only [p, comment, hBlock, Bool.false_eq_true, if_false]
    exact hTail.2

/-
  A line behind two slashes is a lone comment, and clean
  exactly if it is sound.
-/
theorem isClean_iff_of_slashes
    {w : Bytes}
    (hLine : 0x0a ∉ w)
    (hMark : IsUnmarked w) :
    IsLoneComment (0x2f :: 0x2f :: w) ∧
      (IsClean (0x2f :: 0x2f :: w) ↔ Utf8.IsSound w) := by
  rcases step_of_slashes w with ⟨hStart, hStep⟩
  rcases comment_of_line hLine with ⟨hText, hEnd, hStop, hFaults⟩
  have hNoMark (c d : Cursor) :
      Comment.lineMark c (0x2f :: 0x2f :: w) d = (none, []) := by
    have hLineMark :
        (utf8 "//line ").isPrefixOf? (0x2f :: 0x2f :: w) =
          none := hMark
    have hBlockMark :
        (utf8 "/*line ").isPrefixOf? (0x2f :: 0x2f :: w) =
          none := rfl
    simp only [Comment.lineMark, hLineMark, hBlockMark]
  have hOffset : (ofText (0x2f :: 0x2f :: w)).offset = 0 :=
    rfl
  generalize ofText (0x2f :: 0x2f :: w) = c at *
  have hAfter :
      afterPiece false c (comment c) =
        ({ token :=
             ⟨.comment, 0, Comment.text (0x2f :: 0x2f :: w)⟩
           stop := (comment c).cursor.offset
           faults := (comment c).faults },
          ⟨(comment c).cursor, false, none⟩) := by
    have hKind : (comment c).kind = .comment :=
      rfl
    have hNoLine :
        lineEnd? 0 (0x2f :: 0x2f :: w) = none := by
      simp [lineEnd?]
    simp only [afterPiece, hKind, if_true, hText, hNoMark, hNoLine,
      hOffset, List.append_nil]
  rw [hAfter] at hStep
  have hTokens :
      tokens (0x2f :: 0x2f :: w) =
        [{ token :=
             ⟨.comment, 0, Comment.text (0x2f :: 0x2f :: w)⟩
           stop := (comment c).cursor.offset
           faults := (comment c).faults },
         { token := ⟨.eof, (comment c).cursor.offset, []⟩
           stop := (comment c).cursor.offset
           faults := [] }] := by
    have hLater := tokensFrom_of_quiet_nil
      (s := ⟨(comment c).cursor, false, none⟩) rfl rfl hEnd
    have hNotEnd : (step ⟨c, false, none⟩).1.token.kind ≠ .eof := by
      rw [hStep]
      intro hEof
      cases hEof
    have hAll := tokensFrom_of_not_eof hNotEnd
    rw [hStep, hLater] at hAll
    simp only [tokens, hStart, hAll, List.nil_append]
  constructor
  · exact ⟨rfl, _, _, hTokens, rfl, hStop, rfl, rfl⟩
  · rw [IsClean, hTokens, ← hFaults]
    simp

end Scanner

------------------------------------------------------------
-- Markers
------------------------------------------------------------

namespace Deprecation

open Scanner (IsLoneComment IsClean)

/- A line of text as a comment is sound if the line is. -/
theorem exists_commentLine_eq
    {line : Bytes}
    (hLine : 0x0a ∉ line) :
    ∃ w,
      commentLine line = 0x2f :: 0x2f :: w ∧ 0x0a ∉ w ∧
        Scanner.IsUnmarked w ∧
        (Utf8.IsSound w ↔ Utf8.IsSound line) := by
  have hTrim :
      Utf8.IsSound (Bytes.trimRight isTrailing line) ↔
        Utf8.IsSound line := by
    apply Bytes.isSound_trimRight_iff
    intro b hBlank
    simp only [isTrailing, Bool.or_eq_true, beq_iff_eq] at hBlank
    rcases hBlank with (rfl | rfl) | rfl <;> decide
  have hKept : 0x0a ∉ Bytes.trimRight isTrailing line := by
    intro hMem
    apply hLine
    exact List.mem_reverse.mp
      ((List.dropWhile_suffix _).subset (List.mem_reverse.mp hMem))
  unfold commentLine
  rw [← hTrim]
  generalize Bytes.trimRight isTrailing line = kept at hKept ⊢
  cases kept with
  | nil =>
      exact ⟨[], rfl, List.not_mem_nil, rfl, Iff.rfl⟩
  | cons b kept =>
      have hSpace : Utf8.IsAscii [0x20] := by
        decide
      have hSound :=
        Utf8.isSound_ascii_append_iff hSpace (b :: kept)
      rw [List.singleton_append] at hSound
      refine ⟨0x20 :: b :: kept, rfl, ?_, rfl, hSound⟩
      simpa using hKept

/- What the marker says is sound if the texts in it are. -/
theorem isSound_markerText_iff
    (d : Deprecation) :
    Utf8.IsSound d.markerText ↔
      ∀ value, d.since = some value ∨ d.note = some value →
        Utf8.IsSound value := by
  have hBehind
      {w : Bytes}
      (hAscii : Utf8.IsAscii w)
      (s : Bytes) :
      Utf8.IsSound (s ++ w) ↔ Utf8.IsSound s :=
    Utf8.isSound_append_ascii_iff hAscii s
  unfold markerText
  rw [Utf8.isSound_ascii_append_iff (by decide +kernel)]
  rcases d with ⟨_ | since, _ | note⟩
  · have hBare :
        Utf8.IsAscii (utf8 "this alias is deprecated.") := by
      decide +kernel
    simp [hBare.isSound]
  · simp
  · simp only [List.append_assoc]
    rw [Utf8.isSound_ascii_append_iff (by decide +kernel),
      hBehind (by decide +kernel)]
    simp
  · have hMiddle :
        utf8 " (since " = 0x20 :: utf8 "(since " := rfl
    simp only [hMiddle, List.append_assoc, List.cons_append]
    rw [Utf8.isSound_append_cons_iff (by decide) (by decide),
      Utf8.isSound_ascii_append_iff (by decide +kernel),
      hBehind (by decide +kernel)]
    rw [and_comm]
    constructor
    · rintro ⟨hSince, hNote⟩ value hValue
      rcases hValue with hValue | hValue <;> cases hValue
      · exact hSince
      · exact hNote
    · intro hAll
      exact ⟨hAll since (Or.inl rfl), hAll note (Or.inr rfl)⟩

/-
  Every line of a marker is one line comment and nothing else.
  All of them are read without a fault exactly if the version
  and the note are text that may stand in a source file.
-/
theorem markerLines_are_comments_iff
    (d : Deprecation) :
    (∀ line ∈ d.markerLines, IsLoneComment line) ∧
      ((∀ line ∈ d.markerLines, IsClean line) ↔
        ∀ value, d.since = some value ∨ d.note = some value →
          Utf8.IsSound value) := by
  have hEach
      {line : Bytes}
      (hMem : line ∈ d.markerText.lines) :
      IsLoneComment (commentLine line) ∧
        (IsClean (commentLine line) ↔ Utf8.IsSound line) := by
    rcases exists_commentLine_eq (Bytes.mem_of_mem_splitOn hMem).1
      with ⟨w, hEq, hLine, hMark, hSound⟩
    rw [hEq, ← hSound]
    exact Scanner.isClean_iff_of_slashes hLine hMark
  unfold markerLines
  rw [← isSound_markerText_iff, Bytes.isSound_iff_lines]
  constructor
  · intro line hMem
    rcases List.mem_map.mp hMem with ⟨text, hText, rfl⟩
    exact (hEach hText).1
  · rw [List.forall_mem_map]
    exact forall₂_congr fun line hMem => (hEach hMem).2

/- The escapes of a note may stand for what no comment may hold. -/
theorem markerLines_hold_nul :
    ∃ d,
      Alias.parse (utf8 "(deprecated(B, note = \"x\\x00\"))")
          (fun _ => {}) =
        .ok [{ name := utf8 "B", deprecation := some d }] ∧
      ∃ line ∈ d.markerLines,
        ∃ t ∈ Scanner.tokens line, t.faults ≠ [] := by
  refine ⟨{ note := some [0x78, 0] }, by decide +kernel,
    utf8 "// Deprecated: x" ++ [0], by decide +kernel, ?_⟩
  decide +kernel

end Deprecation

end Namesake
