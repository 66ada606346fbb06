import Namesake.Text.Bytes
import Mathlib.Data.List.DropRight

/-
  Ends, pieces and joined pieces of texts as parts of lists:
  what stands behind a byte is no part of a beginning without
  it, what is trimmed from an end stands behind what stays,
  and splitting at a byte and joining go through the text
  from its beginning.

  Main declarations:
    * `Bytes.startsWith_append_of_not_mem`
    * `Bytes.trimEnding_append`
    * `Bytes.trimRight_cons_eq`
    * `Bytes.mem_of_mem_splitOn`
    * `Bytes.splitOn_append_of_not_mem`
    * `Bytes.join_append`
-/

namespace Namesake

namespace Bytes

------------------------------------------------------------
-- Beginnings and Ends
------------------------------------------------------------

/- What follows is no part of a beginning without its first byte. -/
theorem startsWith_append_of_not_mem
    {start : Bytes}
    {b : UInt8}
    (h : b ∉ start)
    (s q : Bytes) :
    (s ++ b :: q).startsWith start = s.startsWith start := by
  induction start generalizing s with
  | nil => simp
  | cons b' start ih =>
      have hByte := List.ne_of_not_mem_cons h
      have hRest := List.not_mem_of_not_mem_cons h
      cases s with
      | nil => simp [List.isPrefixOf, hByte.symm]
      | cons b'' s => simp [List.isPrefixOf_cons_cons, ih hRest s]

@[simp] theorem trimEnding_append
    (front ending : Bytes) :
    (front ++ ending).trimEnding ending = front := by
  have hDrop : ending.isSuffixOf? (front ++ ending) = some front :=
    List.isSuffixOf?_eq_some_iff_append_eq.mpr rfl
  rw [trimEnding, hDrop, Option.getD_some]

/- Without an ending a text is no longer than before. -/
theorem length_le_of_isSuffixOf?
    {ending s rest : Bytes}
    (h : ending.isSuffixOf? s = some rest) :
    rest.length ≤ s.length :=
  List.IsPrefix.length_le
    ⟨ending, List.append_eq_of_isSuffixOf?_eq_some h⟩

theorem length_trimEnding_le
    (s ending : Bytes) :
    (s.trimEnding ending).length ≤ s.length := by
  unfold trimEnding
  cases hDrop : ending.isSuffixOf? s with
  | none => exact Nat.le_refl _
  | some rest => exact length_le_of_isSuffixOf? hDrop

------------------------------------------------------------
-- Trimmed Ends
------------------------------------------------------------

/- The library drops bytes from the right in the same way. -/
theorem trimRight_eq_rdropWhile
    (p : UInt8 → Bool)
    (s : Bytes) :
    trimRight p s = s.rdropWhile p :=
  rfl

/- A first byte is trimmed only with everything behind it. -/
theorem trimRight_cons_eq
    (p : UInt8 → Bool)
    (b : UInt8)
    (s : Bytes) :
    trimRight p (b :: s) =
      if p b = true ∧ trimRight p s = [] then
        []
      else
        b :: trimRight p s := by
  unfold trimRight
  rw [List.reverse_cons, List.dropWhile_append]
  cases hRest : s.reverse.dropWhile p with
  | nil => cases hByte : p b <;> simp [hByte]
  | cons c rest => simp

/- A first byte that is not trimmed stays. -/
theorem trimRight_cons
    {p : UInt8 → Bool}
    {b : UInt8}
    (s : Bytes)
    (hByte : p b = false) :
    trimRight p (b :: s) = b :: trimRight p s := by
  simp [trimRight_cons_eq, hByte]

------------------------------------------------------------
-- Splitting
------------------------------------------------------------

/- A piece has bytes of the text, but no separator. -/
theorem mem_of_mem_splitOn
    {sep : UInt8}
    {s piece : Bytes}
    (h : piece ∈ s.splitOn sep) :
    sep ∉ piece ∧ ∀ b ∈ piece, b ∈ s := by
  induction s generalizing piece with
  | nil =>
      rw [List.splitOn_nil, List.mem_singleton] at h
      subst h
      simp
  | cons c s ih =>
      have hKeep
          {piece : Bytes}
          (h : piece ∈ s.splitOn sep) :
          sep ∉ piece ∧ ∀ b ∈ piece, b ∈ c :: s :=
        ⟨(ih h).1, fun b hb =>
          List.mem_cons_of_mem c ((ih h).2 b hb)⟩
      rw [List.splitOn_cons_eq_if_modifyHead] at h
      split at h
      · rcases List.mem_cons.mp h with rfl | h
        · simp
        · exact hKeep h
      · rename_i hByte
        rcases List.exists_cons_of_ne_nil
            (List.splitOn_ne_nil sep s) with
          ⟨first, rest, hPieces⟩
        rw [hPieces] at h hKeep
        rcases List.mem_cons.mp h with rfl | h
        · have hFirst := hKeep List.mem_cons_self
          refine ⟨?_, ?_⟩
          · exact List.not_mem_cons_of_ne_of_not_mem
              (fun hEq => hByte (by simp [hEq])) hFirst.1
          · intro b hb
            rcases List.mem_cons.mp hb with rfl | hb
            · exact List.mem_cons_self
            · exact hFirst.2 b hb
        · exact hKeep (List.mem_cons_of_mem _ h)

/- A text has a first piece, which text in front continues. -/
theorem splitOn_append_of_not_mem
    {sep : UInt8}
    {front : Bytes}
    (s : Bytes)
    (hFront : sep ∉ front) :
    ∃ piece pieces,
      (front ++ s).splitOn sep = (front ++ piece) :: pieces := by
  induction front with
  | nil => exact List.exists_cons_of_ne_nil (List.splitOn_ne_nil sep s)
  | cons b front ih =>
      have hByte := List.ne_of_not_mem_cons hFront
      rcases ih (List.not_mem_of_not_mem_cons hFront) with
        ⟨piece, pieces, hSplit⟩
      refine ⟨piece, pieces, ?_⟩
      rw [List.cons_append, List.splitOn_cons_eq_if_modifyHead,
        hSplit]
      simp [hByte.symm]

------------------------------------------------------------
-- Joining
------------------------------------------------------------

/- A byte of a joined text is one of the separator or a piece. -/
theorem mem_of_mem_join
    {sep : Bytes}
    {pieces : List Bytes}
    {b : UInt8}
    (h : b ∈ join sep pieces) :
    b ∈ sep ∨ ∃ piece ∈ pieces, b ∈ piece := by
  induction pieces with
  | nil => simp at h
  | cons s pieces ih =>
      cases pieces with
      | nil => simpa using Or.inr h
      | cons t rest =>
          simp only [List.intercalate_cons_cons, List.mem_append] at h
          rcases h with (h | h) | h
          · exact Or.inr ⟨s, List.mem_cons_self, h⟩
          · exact Or.inl h
          · rcases ih h with h | ⟨piece, hMem, hByte⟩
            · exact Or.inl h
            · exact Or.inr
                ⟨piece, List.mem_cons_of_mem s hMem, hByte⟩

theorem join_append
    (sep : Bytes)
    {left right : List Bytes}
    (hLeft : left ≠ [])
    (hRight : right ≠ []) :
    join sep (left ++ right) =
      join sep left ++ sep ++ join sep right := by
  induction left with
  | nil => exact absurd rfl hLeft
  | cons s left ih =>
      cases left with
      | nil => simp [List.intercalate_cons_of_ne_nil hRight]
      | cons t left =>
          have hRest := ih (List.cons_ne_nil t left)
          simp only [join, List.cons_append, List.append_assoc,
            List.intercalate_cons_cons] at hRest ⊢
          rw [hRest]

/- The last piece ends the text. -/
theorem exists_join_concat
    (sep : Bytes)
    (pieces : List Bytes)
    (last : Bytes) :
    ∃ front, join sep (pieces ++ [last]) = front ++ last := by
  cases pieces with
  | nil => exact ⟨[], by simp⟩
  | cons piece pieces =>
      refine ⟨join sep (piece :: pieces) ++ sep, ?_⟩
      rw [join_append sep (List.cons_ne_nil _ _)
        (List.cons_ne_nil _ _)]
      simp

theorem length_le_join_of_head?
    {sep piece : Bytes}
    {pieces : List Bytes}
    (h : piece ∈ pieces.head?) :
    piece.length ≤ (join sep pieces).length := by
  rcases List.head?_eq_some_iff.mp h with ⟨rest, rfl⟩
  cases rest with
  | nil => simp
  | cons t rest =>
      simp only [List.intercalate_cons_cons, List.length_append]
      omega

theorem length_le_join_of_getLast?
    {sep piece : Bytes}
    {pieces : List Bytes}
    (h : piece ∈ pieces.getLast?) :
    piece.length ≤ (join sep pieces).length := by
  rcases List.getLast?_eq_some_iff.mp h with ⟨front, rfl⟩
  rcases exists_join_concat sep front piece with ⟨s, hJoin⟩
  rw [hJoin, List.length_append]
  exact Nat.le_add_left _ _

/- With one more separator, each piece is followed by one. -/
theorem join_append_sep
    (sep : Bytes)
    {pieces : List Bytes}
    (h : pieces ≠ []) :
    join sep pieces ++ sep = pieces.flatMap (· ++ sep) := by
  induction pieces with
  | nil => exact absurd rfl h
  | cons s pieces ih =>
      cases pieces with
      | nil => simp
      | cons t rest =>
          have hRest := ih (List.cons_ne_nil t rest)
          rw [List.flatMap_cons, ← hRest]
          simp [List.intercalate_cons_cons]

/- Two pieces that are joined already count as one. -/
theorem join_joined
    (sep s t : Bytes)
    (rest : List Bytes) :
    join sep ((s ++ sep ++ t) :: rest) =
      join sep (s :: t :: rest) := by
  cases rest with
  | nil => simp [List.intercalate_cons_cons]
  | cons r rest => simp [List.intercalate_cons_cons]

end Bytes

end Namesake
