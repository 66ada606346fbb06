import Namesake.Proofs.Scanner.Lexemes

/-
  Reading a word in a text.  A place in a word that stands
  alone is compared with the same place in a text where a
  blank or the end follows the word.  A literal or a number
  that is read without a fault in the first is read to the
  same end, without a fault, in the second.

  Main declarations:
    * `IsBlankByte`, `IsSolid` and `EndsWord`
    * `Cursor.Extends`
    * `Cursor.Alike`
    * `Literal.alike_stringTail` and its siblings
    * `Number.alike_scan`
-/

namespace Namesake

------------------------------------------------------------
-- Blanks
------------------------------------------------------------

/- The bytes that may stand between two tokens. -/
def IsBlankByte
    (b : UInt8) : Prop :=
  b = 0x20 ∨ b = 0x09 ∨ b = 0x0d ∨ b = 0x0a

instance
    (b : UInt8) :
    Decidable (IsBlankByte b) :=
  inferInstanceAs
    (Decidable (b = 0x20 ∨ b = 0x09 ∨ b = 0x0d ∨ b = 0x0a))

namespace IsBlankByte

variable {b : UInt8}

theorem ascii
    (h : IsBlankByte b) :
    0 < b ∧ b < 0x80 := by
  rcases h with rfl | rfl | rfl | rfl <;> decide

/- A blank byte is a blank of the scanner. -/
theorem isBlank
    (h : IsBlankByte b) :
    Scanner.isBlank false b.toNat = true := by
  rcases h with rfl | rfl | rfl | rfl <;> rfl

end IsBlankByte

/- The text has no byte that may stand between two tokens. -/
def IsSolid
    (s : Bytes) : Prop :=
  ∀ b ∈ s, ¬ IsBlankByte b

-- the bytes of the text are tried, not all bytes
instance
    (s : Bytes) :
    Decidable (IsSolid s) :=
  List.decidableBAll (fun b => ¬ IsBlankByte b) s

/- A word before this text ends where it does alone. -/
def EndsWord
    (t : Bytes) : Prop :=
  ∀ b, t.head? = some b → IsBlankByte b

/- Nothing is wrong with an ASCII byte but zero. -/
theorem Cursor.arrive_of_head
    {c : Cursor}
    {b : UInt8}
    {s : Bytes}
    (hRest : c.rest = b :: s)
    (hPos : 0 < b)
    (hLow : b < 0x80) :
    c.arrive = [] := by
  have hNat : b.toNat < 0x80 := UInt8.lt_iff_toNat_lt.mp hLow
  have hSome : 0 < b.toNat := UInt8.lt_iff_toNat_lt.mp hPos
  have hVal :
      (Utf8.charOf b.toNat).toNat = b.toNat :=
    Utf8.val_charOf (Or.inl (by omega))
  have hNul : b.toNat ≠ 0 := by omega
  have hMark : b.toNat ≠ 0xfeff := by omega
  simp [arrive, hRest, Utf8.split?, hLow, hVal, hNul, hMark]

/- It is passed by itself. -/
theorem Cursor.rest_next_of_ascii
    {c : Cursor}
    {b : UInt8}
    {s : Bytes}
    (hWide : c.isWide = false)
    (hRest : c.rest = b :: s)
    (hLow : b < 0x80) :
    c.next.rest = s := by
  simp [next, hRest, Utf8.split?, hLow, hWide]

/-
  ASCII characters of a kind are passed without a fault, up to
  where what follows them is of another kind.
-/
theorem Cursor.skipWhile_of_ascii
    {p : Nat → Bool}
    {w t : Bytes}
    {c : Cursor}
    (hw : ∀ b ∈ w, (0 < b ∧ b < 0x80) ∧ p b.toNat = true)
    (hClean : ∀ d : Cursor, d.rest = t → d.arrive = [])
    (hStop :
      ∀ d : Cursor, d.rest = t → d.skipWhile p = (d, []))
    (hHere : c.arrive = [])
    (hRest : c.rest = w ++ t) :
    ∃ d, c.skipWhile p = (d, []) ∧ d.rest = t := by
  induction w generalizing c with
  | nil => exact ⟨c, hStop c hRest, hRest⟩
  | cons b w ih =>
      rcases List.forall_mem_cons.mp hw with
        ⟨⟨⟨_, hLow⟩, hp⟩, hLater⟩
      have hNext : c.next.rest = w ++ t :=
        rest_next_of_ascii (isWide_eq_false_of_arrive hHere)
          hRest hLow
      have hArrive : c.next.arrive = [] := by
        cases w with
        | nil => exact hClean _ hNext
        | cons b' w =>
            have hFirst := (hLater b' List.mem_cons_self).1
            exact arrive_of_head hNext hFirst.1 hFirst.2
      rcases ih hLater hArrive hNext with ⟨d, hSkip, hd⟩
      refine ⟨d, ?_, hd⟩
      rw [skipWhile_of_code? (Number.code?_of_head hRest hLow) hp,
        hSkip, hArrive]
      rfl

------------------------------------------------------------
-- Places
------------------------------------------------------------

namespace Cursor

variable {k : Nat} {t : Bytes} {c d c' d' : Cursor}

/-
  The same place in a word that stands alone and in a text in
  which it is followed by `t`.
-/
structure Extends
    (k : Nat)
    (t : Bytes)
    (c d : Cursor) : Prop where
  offset : d.offset = c.offset + k
  rest : d.rest = c.rest ++ t
  narrow : c.isWide = false
  behind : EndsWord t

namespace Extends

/- Whatever follows a word is empty or starts with a blank. -/
theorem cases_behind
    (h : Extends k t c d) :
    t = [] ∨ ∃ b s, t = b :: s ∧ IsBlankByte b := by
  cases ht : t with
  | nil => exact Or.inl rfl
  | cons b s =>
      exact Or.inr ⟨b, s, rfl, h.behind b (by simp [ht])⟩

/-
  A blank completes no glyph, so that each glyph of the word
  is the same in both texts.
-/
theorem split?_eq
    (h : Extends k t c d)
    (hRest : c.rest ≠ []) :
    Utf8.split? d.rest =
      (Utf8.split? c.rest).map fun r => (r.1, r.2 ++ t) := by
  rw [h.rest]
  rcases h.cases_behind with rfl | ⟨b, s, rfl, hBlank⟩
  · simp
  · exact Utf8.split?_append_ascii hRest hBlank.ascii.2 s

theorem code?_eq
    (h : Extends k t c d)
    (hRest : c.rest ≠ []) :
    d.code? = c.code? := by
  unfold code? Bytes.firstCode?
  rw [h.split?_eq hRest, Option.map_map]
  rfl

/- At the end of the word a blank follows, if anything. -/
theorem isBlank_of_end
    {n : Nat}
    (h : Extends k t c d)
    (hEnd : c.rest = [])
    (hCode : d.code? = some n) :
    Scanner.isBlank false n = true := by
  have hRest := h.rest
  rw [hEnd, List.nil_append] at hRest
  rcases h.cases_behind with rfl | ⟨b, s, rfl, hBlank⟩
  · exact absurd hRest (rest_ne_nil_of_code? hCode)
  · rw [Number.code?_of_head hRest hBlank.ascii.2] at hCode
    rw [← Option.some.inj hCode]
    exact hBlank.isBlank

/- A beginning without blanks does not reach over the end. -/
theorem startsWith_eq
    {start : Bytes}
    (h : Extends k t c d)
    (hStart : IsSolid start) :
    d.rest.startsWith start = c.rest.startsWith start := by
  rw [h.rest]
  rcases h.cases_behind with rfl | ⟨b, s, rfl, hBlank⟩
  · rw [List.append_nil]
  · exact Bytes.startsWith_append_of_not_mem
      (fun hMem => hStart b hMem hBlank) c.rest s

/- Only blanks can make a difference to the next byte. -/
theorem byte?_iff
    {b : UInt8}
    (h : Extends k t c d)
    (hByte : ¬ IsBlankByte b) :
    d.byte? = some b ↔ c.byte? = some b := by
  unfold byte?
  rw [h.rest]
  cases c.rest with
  | nil =>
      refine ⟨fun hHead => absurd (h.behind b hHead) hByte, ?_⟩
      intro hHead
      cases hHead
  | cons b' s => simp

theorem byte?_eq
    (h : Extends k t c d)
    (hRest : c.rest ≠ []) :
    d.byte? = c.byte? := by
  unfold byte?
  rw [h.rest]
  cases hText : c.rest with
  | nil => exact absurd hText hRest
  | cons b s => rfl

/- At the end of the word the longer text has a blank. -/
theorem isBlankByte_of_end
    {b : UInt8}
    (h : Extends k t c d)
    (hEnd : c.byte? = none)
    (hByte : d.byte? = some b) :
    IsBlankByte b := by
  rw [byte?, h.rest, List.head?_eq_none_iff.mp hEnd,
    List.nil_append] at hByte
  exact h.behind b hByte

/- Nor is the longer text one of two-byte units. -/
theorem isWide_eq
    (h : Extends k t c d) :
    d.isWide = false := by
  have hNarrow := h.narrow
  unfold isWide at hNarrow ⊢
  rw [h.startsWith_eq (by decide),
    h.startsWith_eq (by decide)]
  by_cases hStart : c.offset = 0
  · rw [hStart] at hNarrow
    simp_all
  · have hOffset : (d.offset == 0) = false := by
      rw [beq_eq_false_iff_ne, h.offset]
      omega
    rw [hOffset, Bool.false_and]

/- What is all right in the word is all right in the text. -/
theorem arrive_eq_nil
    (h : Extends k t c d)
    (hPos : 0 < c.offset)
    (hArrive : c.arrive = []) :
    d.arrive = [] := by
  by_cases hEnd : c.rest = []
  · have hRest := h.rest
    rw [hEnd, List.nil_append] at hRest
    rcases h.cases_behind with rfl | ⟨b, s, rfl, hBlank⟩
    · simp [arrive, hRest, Utf8.split?]
    · exact arrive_of_head hRest hBlank.ascii.1 hBlank.ascii.2
  · have hOffset : 0 < d.offset := by
      rw [h.offset]
      omega
    unfold arrive at hArrive ⊢
    rw [h.split?_eq hEnd]
    cases hSplit : Utf8.split? c.rest with
    | none => rfl
    | some r =>
        rcases r with ⟨g, rest⟩
        cases g with
        | stray b =>
            simp only [hSplit] at hArrive
            split at hArrive
            · cases hArrive
            · cases hArrive
        | char ch =>
            simp only [hSplit, hPos] at hArrive
            simp only [Option.map_some, hOffset]
            split at hArrive
            · cases hArrive
            · split at hArrive
              · cases hArrive
              · simp_all

/- So is the first glyph of the word, if it is no mark. -/
theorem arrive_of_code?
    {n : Nat}
    (h : Extends k t c d)
    (hCode : c.code? = some n)
    (hMark : n ≠ 0xfeff)
    (hArrive : c.arrive = []) :
    d.arrive = [] := by
  rcases exists_split?_of_code? hCode with
    ⟨g, rest, hSplit, hGlyph⟩
  unfold arrive at hArrive ⊢
  rw [h.split?_eq (rest_ne_nil_of_code? hCode)]
  rw [hSplit] at hArrive ⊢
  cases g with
  | stray b =>
      simp only at hArrive
      split at hArrive
      · cases hArrive
      · cases hArrive
  | char ch =>
      have hOther : ch.toNat ≠ 0xfeff := by
        rw [← hGlyph] at hMark
        exact hMark
      simpa [hOther] using hArrive

/- A place behind the beginning of the word. -/
theorem of_passes
    {w : Bytes}
    (h : Extends k t c d)
    (hWord : w ≠ [])
    (hAlone : c.Passes w c')
    (hWhole : d.Passes w d') :
    Extends k t c' d' := by
  have hPos := List.length_pos_iff.mpr hWord
  have hOffset := h.offset
  have hFirst := hAlone.offset
  have hSecond := hWhole.offset
  refine ⟨by omega, ?_, isWide_eq_false (by omega), h.behind⟩
  have hRest := h.rest
  rw [hAlone.rest, hWhole.rest, List.append_assoc] at hRest
  exact List.append_cancel_left hRest

/- What stands between two places is the same, too. -/
theorem between_eq
    (h : Extends k t c d)
    (hNext : Extends k t c' d')
    (hLeads : c.LeadsTo c') :
    Scanner.between d d' = Scanner.between c c' := by
  rcases hLeads with ⟨w, hPasses⟩
  have hWhole : d.Passes w d' := by
    refine ⟨?_, ?_⟩
    · rw [h.rest, hNext.rest, hPasses.rest, List.append_assoc]
    · rw [h.offset, hNext.offset, hPasses.offset]
      omega
  rw [hWhole.between_eq, hPasses.between_eq]

end Extends

------------------------------------------------------------
-- Moves without Faults
------------------------------------------------------------

/-
  If a move inside the word is without faults, so is the move
  in the text, and it ends at the same place.
-/
def Alike
    (k : Nat)
    (t : Bytes)
    (r r' : Cursor × List Fault) : Prop :=
  r.2 = [] → Extends k t r.1 r'.1 ∧ r'.2 = []

namespace Alike

variable {q q' r r' : Cursor × List Fault}

/- A faulty move tells nothing. -/
theorem of_ne_nil
    (h : r.2 ≠ []) :
    Alike k t r r' :=
  fun hNil => absurd hNil h

/- One move after another. -/
theorem append
    (h : Alike k t r r')
    (hNext : Extends k t r.1 r'.1 → Alike k t q q') :
    Alike k t (q.1, r.2 ++ q.2) (q'.1, r'.2 ++ q'.2) := by
  intro hNil
  rcases List.append_eq_nil_iff.mp hNil with ⟨hFirst, hSecond⟩
  rcases h hFirst with ⟨hPlace, hClean⟩
  rcases hNext hPlace hSecond with ⟨hEnd, hRest⟩
  exact ⟨hEnd, by simp [hClean, hRest]⟩

end Alike

namespace Extends

theorem alike
    (h : Extends k t c d) :
    Alike k t (c, []) (d, []) :=
  fun _ => ⟨h, rfl⟩

/- A fault that is reported in both texts or in neither. -/
theorem alike_ite
    (h : Extends k t c d)
    (b : Bool)
    (f f' : Fault) :
    Alike k t (c, if b then [f] else [])
      (d, if b then [f'] else []) := by
  cases b with
  | true => exact Alike.of_ne_nil (by simp)
  | false => exact h.alike

/- Two moves over one word arrive alike. -/
theorem alike_of_passes
    {w : Bytes}
    (h : Extends k t c d)
    (hWord : w ≠ [])
    (hAlone : c.Passes w c')
    (hWhole : d.Passes w d') :
    Alike k t (c', c'.arrive) (d', d'.arrive) := by
  have hNext := h.of_passes hWord hAlone hWhole
  have hPos := List.length_pos_iff.mpr hWord
  have hOffset := hAlone.offset
  exact fun hArrive =>
    ⟨hNext, hNext.arrive_eq_nil (by omega) hArrive⟩

/- Moving on takes the same glyph from both. -/
theorem next
    (h : Extends k t c d)
    (hRest : c.rest ≠ []) :
    Alike k t (c.next, c.next.arrive)
      (d.next, d.next.arrive) := by
  cases hSplit : Utf8.split? c.rest with
  | none => exact absurd hSplit (split?_ne_none hRest)
  | some r =>
      have hWhole : Utf8.split? d.rest = some (r.1, r.2 ++ t) := by
        rw [h.split?_eq hRest, hSplit]
        rfl
      refine h.alike_of_passes ?_ (passes_next hSplit h.narrow)
        (passes_next hWhole h.isWide_eq)
      intro hNil
      have hLess := Utf8.length_of_split? hSplit
      rw [Utf8.eq_bytes_append_of_split? hSplit, hNil,
        List.nil_append] at hLess
      exact Nat.lt_irrefl _ hLess

/- The same bytes are skipped in both texts. -/
private theorem exists_passes_skip
    {n : Nat}
    (h : Extends k t c d)
    (hPos : 0 < n)
    (hLength : n ≤ c.rest.length) :
    ∃ w,
      w ≠ [] ∧ c.Passes w (c.skip n) ∧
        d.Passes w (d.skip n) := by
  have hTake : d.rest.take n = c.rest.take n := by
    rw [h.rest, List.take_append_of_le_length hLength]
  have hWhole : n ≤ d.rest.length := by
    rw [h.rest, List.length_append]
    omega
  refine ⟨c.rest.take n, ?_, passes_skip hLength,
    hTake ▸ passes_skip hWhole⟩
  intro hNil
  have hShort := congrArg List.length hNil
  rw [List.length_take, List.length_nil] at hShort
  omega

/- Skipping bytes that are there leads to places that agree. -/
theorem skip_place
    {n : Nat}
    (h : Extends k t c d)
    (hPos : 0 < n)
    (hLength : n ≤ c.rest.length) :
    Extends k t (c.skip n) (d.skip n) := by
  rcases h.exists_passes_skip hPos hLength with
    ⟨w, hWord, hAlone, hWhole⟩
  exact h.of_passes hWord hAlone hWhole

theorem skip
    {n : Nat}
    (h : Extends k t c d)
    (hPos : 0 < n)
    (hLength : n ≤ c.rest.length) :
    Alike k t (c.skip n, (c.skip n).arrive)
      (d.skip n, (d.skip n).arrive) := by
  rcases h.exists_passes_skip hPos hLength with
    ⟨w, hWord, hAlone, hWhole⟩
  exact h.alike_of_passes hWord hAlone hWhole

theorem skip_one
    (h : Extends k t c d)
    (hRest : c.rest ≠ []) :
    Alike k t (c.skip 1, (c.skip 1).arrive)
      (d.skip 1, (d.skip 1).arrive) :=
  h.skip Nat.one_pos (List.length_pos_iff.mpr hRest)

/- Glyphs other than blanks are passed alike. -/
theorem skipWhile
    {p : Nat → Bool}
    (h : Extends k t c d)
    (hp : ∀ n, Scanner.isBlank false n = true → p n = false) :
    Alike k t (c.skipWhile p) (d.skipWhile p) := by
  fun_induction Cursor.skipWhile p c generalizing d with
  | case1 c hEnd =>
      cases hCode : d.code? with
      | none =>
          rw [Cursor.skipWhile]
          simpa [hCode] using h.alike
      | some n =>
          rw [skipWhile_of_not hCode
            (hp n (h.isBlank_of_end hEnd hCode))]
          exact h.alike
  | case2 c hRest hCode =>
      exact absurd hCode (code?_ne_none hRest)
  | case3 c hRest n hCode hHere _ =>
      rename_i ih
      rw [skipWhile_of_code? ((h.code?_eq hRest).trans hCode)
        hHere]
      exact (h.next hRest).append ih
  | case4 c hRest n hCode hHere =>
      rw [skipWhile_of_not ((h.code?_eq hRest).trans hCode)
        (Bool.eq_false_iff.mpr hHere)]
      exact h.alike

end Extends

end Cursor

------------------------------------------------------------
-- Literals
------------------------------------------------------------

namespace Literal

open Cursor

variable {k : Nat} {t : Bytes} {c d : Cursor}

theorem alike_digitsTail
    (start start' base limit count value : Nat)
    (h : Extends k t c d) :
    Alike k t (digitsTail start base limit count value c)
      (digitsTail start' base limit count value d) := by
  induction count generalizing value c d with
  | zero =>
      simp only [digitsTail]
      split
      · exact Alike.of_ne_nil (by simp)
      · exact h.alike
  | succ count ih =>
      simp only [digitsTail]
      cases hCode : c.code? with
      | none => exact Alike.of_ne_nil (by simp)
      | some n =>
          have hRest := rest_ne_nil_of_code? hCode
          rw [(h.code?_eq hRest).trans hCode]
          simp only
          split
          · exact (h.next hRest).append fun hNext => ih _ hNext
          · exact Alike.of_ne_nil (by simp)

/- An escape without a fault ends in the word. -/
theorem alike_escapeTail
    (quote : UInt8)
    (h : Extends k t c d) :
    Alike k t (escapeTail quote c) (escapeTail quote d) := by
  unfold escapeTail
  cases hCode : c.code? with
  | none => exact Alike.of_ne_nil (by simp)
  | some n =>
      have hRest := rest_ne_nil_of_code? hCode
      have hNext := h.next hRest
      rw [(h.code?_eq hRest).trans hCode]
      simp only
      repeat' split
      · exact hNext
      · exact alike_digitsTail _ _ _ _ _ _ h
      · exact hNext.append (alike_digitsTail _ _ _ _ _ _)
      · exact hNext.append (alike_digitsTail _ _ _ _ _ _)
      · exact hNext.append (alike_digitsTail _ _ _ _ _ _)
      · exact Alike.of_ne_nil (by simp)

/- A backslash with what follows it. -/
theorem alike_escape
    (quote : UInt8)
    (h : Extends k t c d)
    (hRest : c.rest ≠ []) :
    Alike k t
      ((escapeTail quote c.next).1,
        c.next.arrive ++ (escapeTail quote c.next).2)
      ((escapeTail quote d.next).1,
        d.next.arrive ++ (escapeTail quote d.next).2) :=
  (h.next hRest).append (alike_escapeTail quote)

/- A literal without a fault is closed in the word. -/
theorem alike_stringTail
    (start start' : Nat)
    (h : Extends k t c d) :
    Alike k t (stringTail start c) (stringTail start' d) := by
  fun_induction stringTail start c generalizing d with
  | case1 | case2 | case3 => exact Alike.of_ne_nil (by simp)
  | case4 c hRest hQuote =>
      have hWhole := (h.code?_eq hRest).trans hQuote
      rw [stringTail.eq_def start' d]
      simpa [rest_ne_nil_of_code? hWhole, hWhole] using
        h.next hRest
  | case5 c hRest _ _ hSlash =>
      rename_i ih
      have hWhole := (h.code?_eq hRest).trans hSlash
      rw [stringTail.eq_def start' d]
      simpa [rest_ne_nil_of_code? hWhole, hWhole] using
        (alike_escape 0x22 h hRest).append ih
  | case6 c hRest n hCode hLine hQuote hSlash =>
      rename_i ih
      have hWhole := (h.code?_eq hRest).trans hCode
      rw [stringTail.eq_def start' d]
      simpa [rest_ne_nil_of_code? hWhole, hWhole, hLine,
        hQuote, hSlash] using (h.next hRest).append ih

theorem alike_rawTail
    (start start' : Nat)
    (h : Extends k t c d) :
    Alike k t (rawTail start c) (rawTail start' d) := by
  fun_induction rawTail start c generalizing d with
  | case1 => exact Alike.of_ne_nil (by simp)
  | case2 c hRest hQuote =>
      have hWhole := (h.code?_eq hRest).trans hQuote
      rw [rawTail.eq_def start' d]
      simpa [rest_ne_nil_of_code? hWhole, hWhole] using
        h.next hRest
  | case3 c hRest hOther =>
      rename_i ih
      have hBehind : d.rest ≠ [] := by simp [h.rest, hRest]
      have hWhole : d.code? ≠ some 0x60 := by
        rw [h.code?_eq hRest]
        exact hOther
      rw [rawTail.eq_def start' d]
      simpa [hBehind, hWhole] using (h.next hRest).append ih

/- As long as nothing is wrong, all characters count as valid. -/
theorem alike_charTail
    (start start' count : Nat)
    (h : Extends k t c d) :
    Alike k t (charTail start count true c)
      (charTail start' count true d) := by
  generalize hValid : true = valid
  fun_induction charTail start count valid c
    generalizing d with
  | case1 | case2 | case3 =>
      exact Alike.of_ne_nil (by simp [← hValid])
  | case4 count valid c hRest hQuote =>
      have hWhole := (h.code?_eq hRest).trans hQuote
      rw [charTail.eq_def start' count valid d]
      simpa [rest_ne_nil_of_code? hWhole, hWhole] using
        (h.next hRest).append fun hNext =>
          hNext.alike_ite (valid && count != 1) _ _
  | case5 count valid c hRest e broken r hSlash =>
      rename_i ih
      have hWhole := (h.code?_eq hRest).trans hSlash
      intro hNil
      rcases List.append_eq_nil_iff.mp hNil with
        ⟨hEscape, hRead⟩
      -- an escape without a fault is not broken in either text
      have hBroken : broken = false := by
        simp [broken, (List.append_eq_nil_iff.mp hEscape).2]
      rcases alike_escape 0x27 h hRest hEscape with
        ⟨hPlace, hClean⟩
      have hTail := (List.append_eq_nil_iff.mp hClean).2
      have hAlike := ih hPlace (by simp [hBroken, hValid])
      rcases hAlike hRead with ⟨hEnd, hLast⟩
      simp only [hBroken, Bool.not_false, Bool.and_true]
        at hEnd hLast
      simp only [r, hBroken, Bool.not_false, Bool.and_true]
      rw [charTail.eq_def start' count valid d]
      simpa [rest_ne_nil_of_code? hWhole, hWhole, hTail,
        (List.append_eq_nil_iff.mp hClean).1] using
        ⟨hEnd, hLast⟩
  | case6 count valid c hRest n hCode hLine hQuote hSlash =>
      rename_i ih
      have hWhole := (h.code?_eq hRest).trans hCode
      rw [charTail.eq_def start' count valid d]
      simpa [rest_ne_nil_of_code? hWhole, hWhole, hLine,
        hQuote, hSlash] using
        (h.next hRest).append fun hNext => ih hNext hValid

end Literal

------------------------------------------------------------
-- Numbers
------------------------------------------------------------

namespace Number

open Cursor

variable {k : Nat} {t : Bytes} {c d : Cursor}

/- A blank is no digit, so it ends a number. -/
theorem isDigitByte_of_isBlank
    (base : Nat)
    {n : Nat}
    (h : Scanner.isBlank false n = true) :
    isDigitByte base n = false := by
  simp only [Scanner.isBlank, Bool.not_false, Bool.and_true,
    Bool.or_eq_true, beq_iff_eq] at h
  rcases h with ((rfl | rfl) | rfl) | rfl
  all_goals simp [isDigitByte, isAsciiDigit]

/- Where a text stands does not matter for its digits. -/
theorem isSome_tooLarge?
    (base m n : Nat)
    (s : Bytes) :
    (tooLarge? base m s).isSome =
      (tooLarge? base n s).isSome := by
  induction s generalizing m n with
  | nil => rfl
  | cons b s ih =>
      unfold tooLarge?
      split
      · rfl
      · exact ih (m + 1) (n + 1)

/- A fault that is not reported here is not reported there. -/
theorem nil_of_ite
    {b : Bool}
    {f : Fault}
    {fs : List Fault}
    (f' : Fault)
    {fs' : List Fault}
    (h : (if b then [f] else fs) = [])
    (hElse : fs = [] → fs' = []) :
    (if b then [f'] else fs') = [] := by
  cases b with
  | true => cases h
  | false => exact hElse h

/- A condition is met or not, whatever it reports. -/
theorem nil_of_ite_nil
    {b : Bool}
    {f : Fault}
    (f' : Fault)
    (h : (if b then [] else [f]) = []) :
    (if b then [] else [f']) = [] := by
  cases b with
  | true => rfl
  | false => cases h

/- A run of digits without faults, in a word and in a text. -/
structure SameRun
    (k : Nat)
    (t : Bytes)
    (r r' : Run) : Prop where
  place : Extends k t r.cursor r'.cursor
  clean : r'.faults = []
  hasDigit : r'.hasDigit = r.hasDigit
  hasSeparator : r'.hasSeparator = r.hasSeparator
  tooLarge : r'.tooLarge.isSome = r.tooLarge.isSome

/- A run of digits is the same in both texts. -/
theorem sameRun_run
    (base : Nat)
    (h : Extends k t c d)
    (hClean : (run base c).faults = []) :
    SameRun k t (run base c) (run base d) := by
  have hAlike := h.skipWhile (p := isDigitByte base)
    fun _ => isDigitByte_of_isBlank base
  rcases hAlike hClean with ⟨hPlace, hFaults⟩
  have hText := h.between_eq hPlace (leadsTo_skipWhile _ c)
  unfold Scanner.between at hText
  refine ⟨hPlace, hFaults, ?_, ?_, ?_⟩
  · simp only [run, hText]
  · simp only [run, hText]
  · simp only [run, hText]
    exact isSome_tooLarge? base _ _ _

/- An optional part of a number is in both texts or in neither. -/
inductive SamePart
    (k : Nat)
    (t : Bytes) : Option Run → Option Run → Prop where
  | none : SamePart k t none none
  | some
      {r r' : Run}
      (hRun : SameRun k t r r') :
      SamePart k t (some r) (some r')

namespace SamePart

variable {part part' : Option Run}

theorem isSome_eq
    (h : SamePart k t part part') :
    part'.isSome = part.isSome := by
  cases h <;> rfl

theorem isNone_eq
    (h : SamePart k t part part') :
    part'.isNone = part.isNone := by
  cases h <;> rfl

theorem faults_eq
    (h : SamePart k t part part') :
    (part'.map Run.faults).getD [] = [] := by
  cases h with
  | none => rfl
  | some hRun => exact hRun.clean

theorem hasDigit_eq
    (h : SamePart k t part part') :
    (part'.map Run.hasDigit).getD false =
      (part.map Run.hasDigit).getD false := by
  cases h with
  | none => rfl
  | some hRun => exact hRun.hasDigit

theorem hasSeparator_eq
    (h : SamePart k t part part') :
    (part'.map Run.hasSeparator).getD false =
      (part.map Run.hasSeparator).getD false := by
  cases h with
  | none => rfl
  | some hRun => exact hRun.hasSeparator

/- The number goes on at the same place. -/
theorem place
    (h : SamePart k t part part')
    (hBefore : Extends k t c d) :
    Extends k t ((part.map Run.cursor).getD c)
      ((part'.map Run.cursor).getD d) := by
  cases h with
  | none => exact hBefore
  | some hRun => exact hRun.place

end SamePart

/- A fraction is there in both or in neither. -/
theorem samePart_fraction
    (f : NumberForm)
    (h : Extends k t c d)
    (hClean : ((fraction f c).map Run.faults).getD [] = []) :
    SamePart k t (fraction f c) (fraction f d) := by
  have hPoint := h.byte?_iff (b := 0x2e) (by decide)
  unfold fraction at hClean ⊢
  split
  · rename_i hHere
    rw [if_pos hHere] at hClean
    rw [if_pos (hPoint.mpr hHere)]
    simp only [Option.map_some, Option.getD_some,
      List.append_eq_nil_iff] at hClean
    rcases hClean with ⟨⟨hRadix, hArrive⟩, hDigits⟩
    rcases h.skip_one (rest_ne_nil_of_byte? hHere) hArrive with
      ⟨hNext, hClean⟩
    simp only at hNext hClean
    have hRun := sameRun_run f.base hNext hDigits
    refine SamePart.some ⟨hRun.place, ?_, hRun.hasDigit,
      hRun.hasSeparator, hRun.tooLarge⟩
    have hNoRadix : ¬ (f = .octal || f = .binary) = true := by
      intro hRadix'
      rw [if_pos hRadix'] at hRadix
      cases hRadix
    simp [hNoRadix, hClean, hRun.clean]
  · rename_i hHere
    rw [if_neg fun hThere => hHere (hPoint.mp hThere)]
    exact SamePart.none

/- One byte is skipped in both texts or in neither. -/
theorem alike_skip_if
    {p p' : Prop}
    [Decidable p]
    [Decidable p']
    (h : Extends k t c d)
    (hSame : p' ↔ p)
    (hRest : p → c.rest ≠ []) :
    Alike k t
      (if p then c.skip 1 else c,
        if p then (if p then c.skip 1 else c).arrive else [])
      (if p' then d.skip 1 else d,
        if p' then (if p' then d.skip 1 else d).arrive
        else []) := by
  by_cases hp : p
  · simp only [if_pos hp, if_pos (hSame.mpr hp)]
    exact h.skip_one (hRest hp)
  · simp only [if_neg hp, if_neg fun hp' => hp (hSame.mp hp')]
    exact h.alike

/- A sign in front of the digits is passed alike. -/
theorem alike_sign
    (h : Extends k t c d) :
    Alike k t
      (if c.byte? = some 0x2b || c.byte? = some 0x2d then
          c.skip 1
        else
          c,
        if c.byte? = some 0x2b || c.byte? = some 0x2d then
          (if c.byte? = some 0x2b || c.byte? = some 0x2d then
              c.skip 1
            else
              c).arrive
        else
          [])
      (if d.byte? = some 0x2b || d.byte? = some 0x2d then
          d.skip 1
        else
          d,
        if d.byte? = some 0x2b || d.byte? = some 0x2d then
          (if d.byte? = some 0x2b || d.byte? = some 0x2d then
              d.skip 1
            else
              d).arrive
        else
          []) := by
  refine alike_skip_if h ?_ ?_
  · simp only [h.byte?_iff (b := 0x2b) (by decide),
      h.byte?_iff (b := 0x2d) (by decide)]
  · intro hSign hEnd
    simp [byte?, hEnd] at hSign

/- And so is an exponent. -/
theorem samePart_exponent
    (f : NumberForm)
    (h : Extends k t c d)
    (hClean : ((exponent f c).map Run.faults).getD [] = []) :
    SamePart k t (exponent f c) (exponent f d) := by
  unfold exponent at hClean ⊢
  cases hByte : c.byte? with
  | none =>
      cases hBehind : d.byte? with
      | none => exact SamePart.none
      | some b =>
          -- what follows the word is a blank and no letter
          have hBlank := h.isBlankByte_of_end hByte hBehind
          rcases hBlank with rfl | rfl | rfl | rfl
          all_goals exact SamePart.none
  | some b =>
      have hRest := rest_ne_nil_of_byte? hByte
      simp only [hByte] at hClean
      simp only [(h.byte?_eq hRest).trans hByte]
      split
      · rename_i hLetter
        rw [if_pos hLetter] at hClean
        simp only [Option.map_some, Option.getD_some,
          List.append_eq_nil_iff] at hClean
        rcases hClean with
          ⟨⟨⟨hForm, hArrive, hSign⟩, hDigits⟩, hSome⟩
        rcases h.skip_one hRest hArrive with ⟨hNext, hBehind⟩
        simp only at hNext hBehind
        rcases alike_sign hNext hSign with ⟨hPlace, hSigned⟩
        simp only at hPlace hSigned
        have hRun := sameRun_run 10 hPlace hDigits
        refine SamePart.some ⟨hRun.place, ?_, hRun.hasDigit,
          hRun.hasSeparator, hRun.tooLarge⟩
        simp only [List.append_eq_nil_iff]
        refine ⟨⟨⟨?_, hBehind, hSigned⟩, hRun.clean⟩, ?_⟩
        · exact nil_of_ite _ hForm fun hElse =>
            nil_of_ite _ hElse fun _ => rfl
        · rw [hRun.hasDigit]
          exact nil_of_ite_nil _ hSome
      · exact SamePart.none

/- Where the digits of a number start. -/
structure SameForm
    (k : Nat)
    (t : Bytes)
    (f f' : NumberForm × Cursor × Bool) : Prop where
  form : f'.1 = f.1
  zero : f'.2.2 = f.2.2
  place : Extends k t f.2.1 f'.2.1

/- The prefix of a number is read alike. -/
theorem sameForm_form
    (h : Extends k t c d)
    (hRest : c.rest ≠ []) :
    SameForm k t (form c) (form d) := by
  have hByte := h.byte?_eq hRest
  unfold byte? at hByte
  by_cases hZero : c.rest.head? = some 0x30
  · have hOne := h.skip_place Nat.one_pos
      (List.length_pos_iff.mpr hRest)
    rcases hText : c.rest with _ | ⟨b, _ | ⟨b', s⟩⟩
    · exact absurd hText hRest
    · rw [hText] at hZero
      cases hZero
      have hWhole : d.rest = 0x30 :: t := by
        rw [h.rest, hText]
        rfl
      unfold form
      simp only [hText, hWhole]
      rcases h.cases_behind with rfl | ⟨b, s, rfl, hBlank⟩
      · exact ⟨rfl, rfl, hOne⟩
      · -- no letter of a base follows, but a blank
        rcases hBlank with rfl | rfl | rfl | rfl
        all_goals exact ⟨rfl, rfl, hOne⟩
    · have hTwo := h.skip_place Nat.two_pos
        (by simp [hText] : 2 ≤ c.rest.length)
      rw [hText] at hZero
      cases hZero
      have hWhole : d.rest = 0x30 :: b' :: (s ++ t) := by
        rw [h.rest, hText]
        rfl
      unfold form
      simp only [hText, hWhole]
      repeat' split
      · exact ⟨rfl, rfl, hTwo⟩
      · exact ⟨rfl, rfl, hTwo⟩
      · exact ⟨rfl, rfl, hTwo⟩
      · exact ⟨rfl, rfl, hOne⟩
  · rw [form_of_head_ne hZero,
      form_of_head_ne (hByte ▸ hZero)]
    exact ⟨rfl, rfl, h⟩

/- Behind the form of a number nothing is wrong, if it moves. -/
private theorem arrive_of_form
    {start start' : Cursor}
    (h : Extends k t c d)
    (hStart : Extends k t start start')
    (hLeads : c.LeadsTo start)
    (hClean :
      (if start.offset = c.offset then [] else start.arrive) =
        []) :
    (if start'.offset = d.offset then [] else start'.arrive) =
      [] := by
  have hMono := hLeads.offset_mono
  have hSame := hStart.offset
  have hHere := h.offset
  by_cases hMoved : start.offset = c.offset
  · rw [if_pos (by omega)]
  · rw [if_neg hMoved] at hClean
    rw [if_neg (by omega)]
    exact hStart.arrive_eq_nil (by omega) hClean

/- A digit that is too large is so in both texts. -/
private theorem badDigit_eq_nil
    {r r' : Run}
    {p : Prop}
    [Decidable p]
    {f : NumberForm}
    (hSame : SameRun k t r r')
    (hClean :
      (match r.tooLarge with
        | some (offset, b) =>
            if p then [(⟨offset, .digit b.toNat f⟩ : Fault)]
            else []
        | none => []) = []) :
    (match r'.tooLarge with
      | some (offset, b) =>
          if p then [(⟨offset, .digit b.toNat f⟩ : Fault)]
          else []
      | none => []) = [] := by
  have hLarge := hSame.tooLarge
  cases hHere : r.tooLarge with
  | none =>
      rw [hHere] at hLarge
      rw [Option.isNone_iff_eq_none.mp
        (Option.isSome_eq_false_iff.mp hLarge)]
  | some digit =>
      rw [hHere] at hClean
      by_cases hp : p
      · simp only [if_pos hp] at hClean
        cases hClean
      · simp only [if_neg hp]
        split <;> rfl

/- A separator out of place is so in both texts. -/
private theorem badSeparator_eq_nil
    {b : Bool}
    {m : Nat}
    (n : Nat)
    {s : Bytes}
    (hClean :
      (if b then
          match badSeparator? s with
          | some i => [(⟨m + i, .separator⟩ : Fault)]
          | none => []
        else
          []) = []) :
    (if b then
        match badSeparator? s with
        | some i => [(⟨n + i, .separator⟩ : Fault)]
        | none => []
      else
        []) = [] := by
  cases b with
  | false => rfl
  | true =>
      simp only [if_true] at hClean ⊢
      cases hBad : badSeparator? s with
      | none => rfl
      | some i =>
          rw [hBad] at hClean
          cases hClean

/- A number is read alike: its kind, its extent, no faults. -/
theorem alike_scan
    (h : Extends k t c d)
    (hRest : c.rest ≠ [])
    (hClean : (scan c).2.2 = []) :
    (scan d).1 = (scan c).1 ∧
      Extends k t (scan c).2.1 (scan d).2.1 ∧
      (scan d).2.2 = [] := by
  have hForm := sameForm_form h hRest
  have hStartLeads := leadsTo_form c
  unfold scan at hClean ⊢
  simp only [List.append_eq_nil_iff] at hClean ⊢
  generalize form c = f at *
  generalize form d = f' at *
  rcases f with ⟨form, start, zero⟩
  rcases f' with ⟨form', start', zero'⟩
  rcases hForm with ⟨hSame, hZero, hStart⟩
  simp only at hSame hZero hStart hClean hStartLeads ⊢
  subst hSame hZero
  rcases hClean with
    ⟨⟨⟨⟨⟨⟨⟨⟨hArrive, hWholeClean⟩, hFractionClean⟩,
      hSome⟩, hPowerClean⟩, hMantissa⟩, hSuffix⟩, hDigit⟩,
        hSeparator⟩
  -- the digits before the point
  have hWhole := sameRun_run form'.base hStart hWholeClean
  have hWholeLeads :=
    hStartLeads.trans (leadsTo_run form'.base start)
  generalize run form'.base start = whole at *
  generalize run form'.base start' = whole' at *
  -- the fraction
  have hFraction :=
    samePart_fraction form' hWhole.place hFractionClean
  have hFractionEnd := hFraction.place hWhole.place
  have hFractionLeads :=
    hWholeLeads.trans
      (leadsTo_getD fun r (hr :
        fraction form' whole.cursor = some r) =>
          movesTo_of_fraction hr)
  generalize fraction form' whole.cursor = frac at *
  generalize fraction form' whole'.cursor = frac' at *
  generalize (frac.map Run.cursor).getD whole.cursor = e at *
  generalize (frac'.map Run.cursor).getD whole'.cursor = e' at *
  -- the exponent
  have hPower := samePart_exponent form' hFractionEnd hPowerClean
  have hPowerEnd := hPower.place hFractionEnd
  have hPowerLeads :=
    hFractionLeads.trans
      (leadsTo_getD fun r (hr : exponent form' e = some r) =>
        movesTo_of_exponent hr)
  generalize exponent form' e = power at *
  generalize exponent form' e' = power' at *
  generalize (power.map Run.cursor).getD e = p at *
  generalize (power'.map Run.cursor).getD e' = p' at *
  -- the suffix of imaginary numbers
  have hLetter := hPowerEnd.byte?_iff (b := 0x69) (by decide)
  have hLast := alike_skip_if hPowerEnd hLetter
    rest_ne_nil_of_byte? hSuffix
  simp only at hLast
  rcases hLast with ⟨hLast, hSuffix'⟩
  have hLastLeads :
      c.LeadsTo (if p.byte? = some 0x69 then p.skip 1 else p) := by
    split
    · rename_i hImaginary
      exact hPowerLeads.trans (movesTo_skip_one
        (rest_ne_nil_of_byte? hImaginary)).leadsTo
    · exact hPowerLeads
  have hText := h.between_eq hLast hLastLeads
  unfold Scanner.between at hText
  simp only [hLetter, hFraction.isSome_eq, hPower.isSome_eq,
    hPower.isNone_eq, hWhole.hasDigit, hFraction.hasDigit_eq,
    hWhole.hasSeparator, hFraction.hasSeparator_eq,
    hPower.hasSeparator_eq] at hText hSuffix' hLast ⊢
  rw [hText]
  refine ⟨trivial, hLast, ⟨⟨⟨⟨⟨⟨⟨⟨?_, hWhole.clean⟩,
    hFraction.faults_eq⟩, ?_⟩, hPower.faults_eq⟩, ?_⟩,
      hSuffix'⟩, ?_⟩, ?_⟩⟩
  · exact arrive_of_form h hStart hStartLeads hArrive
  · exact nil_of_ite_nil _ hSome
  · exact nil_of_ite _ hMantissa fun _ => rfl
  · exact badDigit_eq_nil hWhole hDigit
  · exact badSeparator_eq_nil _ hSeparator

end Number

end Namesake
