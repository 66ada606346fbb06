import Mathlib.Data.List.Pairwise
import Namesake.Proofs.Scanner.Extension

/-
  Where comments and line marks stand.  A comment is a stretch
  of the text without its carriage returns, a line comment is
  on one line, and no line mark takes effect inside a comment.

  Main declarations:
    * `Scanner.exists_afterPiece_of_step`
    * `Scanner.passes_comment`
    * `Scanner.exists_raw_of_mem_tokens`
    * `Scanner.mark_apart_of_mem_tokens`
    * `Scanner.exists_byte_of_mem_tokens`
    * `Scanner.tokens_of_lineComment`
-/

namespace Namesake

namespace Scanner

open Cursor

------------------------------------------------------------
-- Steps
------------------------------------------------------------

/- A token that is written is a piece at a place that is not blank. -/
theorem exists_afterPiece_of_step
    {s : State}
    (hWritten : (step s).1.token.isImplied = false)
    (hKind : (step s).1.token.kind ≠ .eof) :
    ∃ c code faults,
      s.cursor.LeadsTo c ∧ c.code? = some code ∧
        code ≠ 0x0a ∧
        step s =
          ({ (afterPiece s.implies c (piece c code)).1 with
              faults := faults },
            (afterPiece s.implies c (piece c code)).2) := by
  have hBlank := leadsTo_skipWhile (isBlank s.implies) s.cursor
  unfold step at hWritten hKind ⊢
  cases hPending : s.pending with
  | some n =>
      rw [hPending] at hWritten
      cases hWritten
  | none =>
      simp only [hPending] at hWritten hKind ⊢
      generalize s.cursor.skipWhile (isBlank s.implies) = r at *
      cases hCode : r.1.code? with
      | none =>
          simp only [hCode] at hWritten hKind
          split at hWritten
          · cases hWritten
          · rename_i hImplies
            rw [if_neg hImplies] at hKind
            exact absurd rfl hKind
      | some code =>
          simp only [hCode] at hWritten ⊢
          split at hWritten
          · cases hWritten
          · rename_i hLine
            rw [if_neg hLine]
            exact ⟨r.1, code, _, hBlank, hCode, hLine, rfl⟩

/- Only comments hold line marks. -/
theorem mark_step_of_not_comment
    {s : State}
    (h : (step s).1.token.kind ≠ .comment) :
    (step s).1.mark = none := by
  unfold step at h ⊢
  cases hPending : s.pending with
  | some n => rfl
  | none =>
      simp only [hPending] at h ⊢
      generalize s.cursor.skipWhile (isBlank s.implies) = r at *
      cases hCode : r.1.code? with
      | none =>
          simp only
          split <;> rfl
      | some code =>
          simp only [hCode] at h ⊢
          split
          · rfl
          · rename_i hLine
            rw [if_neg hLine, kind_afterPiece] at h
            simp only [afterPiece, if_neg h]

------------------------------------------------------------
-- Comments
------------------------------------------------------------

/- A comment is what stands between its two ends. -/
theorem passes_comment
    {c : Cursor}
    (h : startsComment c.rest = true) :
    c.Passes (comment c).text (comment c).cursor ∧
      ((∃ w,
          (comment c).text = 0x2f :: 0x2f :: w ∧ 0x0a ∉ w) ∨
        ∃ w, (comment c).text = 0x2f :: 0x2a :: w) := by
  have hPasses :
      c.Passes (comment c).text (comment c).cursor := by
    rcases movesTo_comment h with ⟨w, _, hPasses⟩
    have hText : (comment c).text = w := hPasses.between_eq
    rw [hText]
    exact hPasses
  refine ⟨hPasses, ?_⟩
  have hTwo
      {b : UInt8}
      {rest : Bytes}
      (hRest : c.rest = 0x2f :: b :: rest) :
      c.Passes [0x2f, b] (c.skip 2) := by
    have hSkip : c.Passes (c.rest.take 2) (c.skip 2) :=
      passes_skip (by simp [hRest])
    rw [hRest] at hSkip
    exact hSkip
  have hSplit
      {b : UInt8}
      (hStarts : c.rest.startsWith [0x2f, b] = true) :
      ∃ rest, c.rest = 0x2f :: b :: rest := by
    rcases List.isPrefixOf_iff_prefix.mp hStarts with
      ⟨rest, hRest⟩
    exact ⟨rest, hRest.symm⟩
  by_cases hBlock : c.rest.startsWith [0x2f, 0x2a] = true
  · rcases hSplit hBlock with ⟨rest, hRest⟩
    rcases Comment.leadsTo_blockTail c.offset (c.skip 2) with
      ⟨w, hTail⟩
    have hText : (comment c).text = [0x2f, 0x2a] ++ w := by
      simp only [comment, if_pos hBlock]
      exact ((hTwo hRest).trans hTail).between_eq
    exact Or.inr ⟨w, hText⟩
  · have hLine : c.rest.startsWith [0x2f, 0x2f] = true := by
      simpa [startsComment, hBlock] using h
    rcases hSplit hLine with ⟨rest, hRest⟩
    rcases passes_skipWhile (p := (· ≠ 0x0a)) (c := c.skip 2)
        (Or.inr (Nat.succ_pos _)) with ⟨w, hTail, hBytes⟩
    have hText : (comment c).text = [0x2f, 0x2f] ++ w := by
      simp only [comment, if_neg hBlock]
      exact ((hTwo hRest).trans hTail).between_eq
    refine Or.inl ⟨w, hText, ?_⟩
    intro hMem
    have hByte := hBytes 0x0a hMem (by decide)
    revert hByte
    decide

/- What is written of a block comment stays in front. -/
theorem exists_withoutReturns
    (written s : Bytes) :
    ∃ tail,
      Comment.withoutReturns written s =
        written.reverse ++ tail := by
  induction s generalizing written with
  | nil =>
      refine ⟨[], ?_⟩
      rw [Comment.withoutReturns, List.append_nil]
  | cons b s ih =>
      rw [Comment.withoutReturns]
      split
      · rcases ih (b :: written) with ⟨tail, hTail⟩
        refine ⟨b :: tail, ?_⟩
        rw [hTail]
        simp
      · exact ih written

/- A block comment still starts with slash and star. -/
theorem exists_text_of_block
    (w : Bytes) :
    ∃ tail,
      Comment.text (0x2f :: 0x2a :: w) = 0x2f :: 0x2a :: tail := by
  rcases exists_withoutReturns [0x2a, 0x2f] w with
    ⟨tail, hTail⟩
  refine ⟨tail, ?_⟩
  simpa [Comment.text,
    Comment.withoutReturns] using hTail

/- The text of a line comment has all bytes but the returns. -/
theorem text_of_lineComment
    {raw rest : Bytes}
    (hForm :
      (∃ w, raw = 0x2f :: 0x2f :: w ∧ 0x0a ∉ w) ∨
        ∃ w, raw = 0x2f :: 0x2a :: w)
    (hText :
      List.isPrefixOf? [0x2f, 0x2f] (Comment.text raw) =
        some rest) :
    0x0a ∉ raw ∧ Comment.text raw = raw.filter (· ≠ 0x0d) := by
  rcases hForm with ⟨w, rfl, hLine⟩ | ⟨w, rfl⟩
  · refine ⟨by simpa using hLine, ?_⟩
    simp [Comment.text]
  · rcases exists_text_of_block w with ⟨tail, hBlock⟩
    rw [hBlock] at hText
    simp [List.isPrefixOf?] at hText

/- Either starts with a slash. -/
theorem head?_text
    {raw : Bytes}
    (hForm :
      (∃ w, raw = 0x2f :: 0x2f :: w ∧ 0x0a ∉ w) ∨
        ∃ w, raw = 0x2f :: 0x2a :: w) :
    (Comment.text raw).head? = some 0x2f := by
  rcases hForm with ⟨w, rfl, _⟩ | ⟨w, rfl⟩
  · simp [Comment.text]
  · rcases exists_text_of_block w with ⟨tail, hBlock⟩
    rw [hBlock]
    rfl

theorem token_afterPiece
    {implies : Bool}
    {c : Cursor}
    {p : Piece}
    (h : p.kind = .comment) :
    (afterPiece implies c p).1.token =
      ⟨.comment, c.offset, Comment.text p.text⟩ := by
  simp only [afterPiece, if_pos h]
  repeat' split
  all_goals rfl

/- What a comment token is made of. -/
structure ReadsComment
    (c : Cursor)
    (raw : Bytes)
    (t : Lexed)
    (d : Cursor) : Prop where
  passes : c.Passes raw d
  starts : startsComment c.rest = true
  form :
    (∃ w, raw = 0x2f :: 0x2f :: w ∧ 0x0a ∉ w) ∨
      ∃ w, raw = 0x2f :: 0x2a :: w
  token : t.token = ⟨.comment, c.offset, Comment.text raw⟩
  stop : t.stop = d.offset
  mark : t.mark = (Comment.lineMark c raw d).1

theorem exists_readsComment_of_step
    {s : State}
    (h : (step s).1.token.kind = .comment) :
    ∃ c raw,
      s.cursor.LeadsTo c ∧
        ReadsComment c raw (step s).1 (step s).2.cursor := by
  have hWritten : (step s).1.token.isImplied = false := by
    simp [Token.isImplied, h]
  have hEof : (step s).1.token.kind ≠ .eof := by
    simp [h]
  rcases exists_afterPiece_of_step hWritten hEof with
    ⟨c, code, faults, hLeads, hCode, _, hStep⟩
  rw [hStep] at h ⊢
  simp only [kind_afterPiece] at h
  rcases piece_cases c code with
    ⟨_, hWord⟩ | ⟨hStarts, hComment⟩ | ⟨_, hOther⟩
  · rw [hWord] at h
    exact absurd h (ofWord_ne_comment _)
  · rcases passes_comment hStarts with ⟨hPasses, hForm⟩
    have hKind : (comment c).kind = .comment :=
      rfl
    refine ⟨c, (comment c).text, hLeads, ?_, hStarts, hForm,
      ?_, ?_, ?_⟩
    · rw [hComment, cursor_afterPiece]
      exact hPasses
    all_goals
      rw [hComment]
      simp only [afterPiece, if_pos hKind]
      repeat' split
    all_goals rfl
  · exact absurd h hOther

------------------------------------------------------------
-- Line Marks
------------------------------------------------------------

/- A mark takes effect behind its comment, or on the next line. -/
theorem offset_of_lineMark
    {c d : Cursor}
    {raw : Bytes}
    {m : LineMark}
    (h : (Comment.lineMark c raw d).1 = some m) :
    m.offset = d.offset ∨
      m.offset = d.offset + 1 ∧ d.byte? = some 0x0a := by
  have hRead
      {offset effect : Nat}
      {body : Bytes}
      (h : (Comment.readMark offset effect body).1 = some m) :
      m.offset = effect := by
    unfold Comment.readMark at h
    simp only at h
    repeat' split at h
    all_goals cases h
    all_goals rfl
  unfold Comment.lineMark at h
  split at h
  · split at h
    · have hEffect := hRead h
      split at hEffect
      · rename_i hLine
        exact Or.inr ⟨hEffect, hLine⟩
      · exact Or.inl hEffect
    · cases h
  · split at h
    · split at h
      · exact Or.inl (hRead h)
      · cases h
    · cases h

/- The mark of a token does not take effect inside a comment. -/
def Apart
    (t u : Lexed) : Prop :=
  t.token.kind = .comment →
    ∀ m, u.mark = some m →
      m.offset ≤ t.token.offset ∨ t.stop ≤ m.offset

theorem exists_readsComment_of_mark
    {s : State}
    {m : LineMark}
    (h : (step s).1.mark = some m) :
    ∃ c raw,
      s.cursor.LeadsTo c ∧
        ReadsComment c raw (step s).1 (step s).2.cursor := by
  apply exists_readsComment_of_step
  by_cases hKind : (step s).1.token.kind = .comment
  · exact hKind
  · rw [mark_step_of_not_comment hKind] at h
    cases h

theorem stop_le_of_mark
    {s : State}
    {m : LineMark}
    (h : (step s).1.mark = some m) :
    (step s).2.cursor.offset ≤ m.offset := by
  rcases exists_readsComment_of_mark h with
    ⟨c, raw, _, hReads⟩
  rw [hReads.mark] at h
  rcases offset_of_lineMark h with hSame | ⟨hNext, _⟩
  · exact Nat.le_of_eq hSame.symm
  · rw [hNext]
    exact Nat.le_succ _

theorem apart_step
    (s : State) :
    Apart (step s).1 (step s).1 := by
  intro hKind m hMark
  rcases exists_readsComment_of_step hKind with
    ⟨c, raw, _, hReads⟩
  rw [hReads.stop]
  exact Or.inr (stop_le_of_mark hMark)

/- A mark and a comment behind it. -/
theorem apart_later
    {s s' : State}
    (hLeads : (step s).2.cursor.LeadsTo s'.cursor) :
    Apart (step s).1 (step s').1 ∧
      Apart (step s').1 (step s).1 := by
  constructor
  · intro hKind m hMark
    rcases exists_readsComment_of_step hKind with
      ⟨c, raw, _, hReads⟩
    have hThere := stop_le_of_mark hMark
    have hBehind := hLeads.offset_mono
    have hFrom := (steps_step s').leadsTo.offset_mono
    rw [hReads.stop]
    exact Or.inr (Nat.le_trans hBehind (Nat.le_trans hFrom hThere))
  · intro hKind m hMark
    rcases exists_readsComment_of_step hKind with
      ⟨c, raw, hPlace, hReads⟩
    rcases exists_readsComment_of_mark hMark with
      ⟨c', raw', _, hReads'⟩
    rcases hLeads.trans hPlace with ⟨w, hPasses⟩
    rw [hReads'.mark] at hMark
    have hOffset :
        (step s').1.token.offset =
          (step s).2.cursor.offset + w.length := by
      rw [hReads.token, ← hPasses.offset]
    rw [hOffset]
    refine Or.inl ?_
    rcases offset_of_lineMark hMark with hSame | ⟨hNext, hLine⟩
    · rw [hSame]
      exact Nat.le_add_right _ _
    · cases w with
      | cons b w =>
          rw [hNext, List.length_cons]
          omega
      | nil =>
          -- a comment does not start with a line end
          have hStarts := hReads.starts
          have hRest := hPasses.rest
          rw [List.nil_append] at hRest
          rw [byte?, hRest] at hLine
          cases hRest' : c.rest with
          | nil =>
              rw [hRest'] at hLine
              cases hLine
          | cons b rest =>
              rw [hRest'] at hLine hStarts
              cases hLine
              cases hStarts

------------------------------------------------------------
-- All Tokens
------------------------------------------------------------

theorem pairwise_apart
    (s : State) :
    (tokensFrom s).Pairwise fun t u =>
      Apart t u ∧ Apart u t := by
  fun_induction tokensFrom s with
  | case1 s => exact List.pairwise_singleton _ _
  | case2 s _ _ _ ih =>
      refine List.Pairwise.cons ?_ ih
      intro u hMem
      rcases exists_leadsTo_of_mem_tokensFrom hMem with
        ⟨s', hLeads, rfl⟩
      exact apart_later hLeads
  | case3 s => exact List.pairwise_singleton _ _

theorem apart_of_mem_tokensFrom
    {s : State}
    {t u : Lexed}
    (hComment : t ∈ tokensFrom s)
    (hMark : u ∈ tokensFrom s) :
    Apart t u := by
  have hSymm :
      Std.Symm fun t u : Lexed => Apart t u ∧ Apart u t :=
    ⟨fun _ _ => And.symm⟩
  refine (List.Pairwise.forall_of_forall ?_ (pairwise_apart s)
    hComment hMark).1
  intro t hMem
  rcases exists_leadsTo_of_mem_tokensFrom hMem with
    ⟨s', _, rfl⟩
  exact ⟨apart_step s', apart_step s'⟩

/- Only the faults of the first token are changed. -/
theorem exists_of_mem_tokens
    {src : Bytes}
    {t : Lexed}
    (h : t ∈ tokens src) :
    ∃ u ∈ tokensFrom (start src).1,
      t.token = u.token ∧ t.stop = u.stop ∧ t.mark = u.mark := by
  unfold tokens at h
  simp only at h
  split at h
  · cases h
  · rename_i first rest hTokens
    rw [hTokens]
    rcases List.mem_cons.mp h with rfl | hTail
    · exact ⟨first, List.mem_cons_self, rfl, rfl, rfl⟩
    · exact ⟨t, List.mem_cons_of_mem _ hTail, rfl, rfl, rfl⟩

/- No mark takes effect inside a comment of the text. -/
theorem mark_apart_of_mem_tokens
    {src : Bytes}
    {t u : Lexed}
    {m : LineMark}
    (hComment : t ∈ tokens src)
    (hKind : t.token.kind = .comment)
    (hMem : u ∈ tokens src)
    (hMark : u.mark = some m) :
    m.offset ≤ t.token.offset ∨ t.stop ≤ m.offset := by
  rcases exists_of_mem_tokens hComment with
    ⟨t', hFrom, hToken, hStop, _⟩
  rcases exists_of_mem_tokens hMem with
    ⟨u', hFrom', _, _, hMark'⟩
  rw [hToken] at hKind ⊢
  rw [hMark'] at hMark
  rw [hStop]
  exact apart_of_mem_tokensFrom hFrom hFrom' hKind m hMark

/- A comment is a stretch of the text. -/
theorem exists_raw_of_mem_tokens
    {src : Bytes}
    {t : Lexed}
    (hMem : t ∈ tokens src)
    (hKind : t.token.kind = .comment) :
    ∃ front raw rest,
      src = front ++ raw ++ rest ∧
        front.length = t.token.offset ∧
        t.stop = t.token.offset + raw.length ∧
        t.token.text = Comment.text raw ∧
        ((∃ w, raw = 0x2f :: 0x2f :: w ∧ 0x0a ∉ w) ∨
          ∃ w, raw = 0x2f :: 0x2a :: w) := by
  rcases exists_of_mem_tokens hMem with
    ⟨u, hFrom, hToken, hStop, _⟩
  rcases exists_leadsTo_of_mem_tokensFrom hFrom with
    ⟨s, hLeads, rfl⟩
  rw [hToken] at hKind
  rcases exists_readsComment_of_step hKind with
    ⟨c, raw, hPlace, hReads⟩
  rcases (leadsTo_start src).trans (hLeads.trans hPlace) with
    ⟨front, hFront⟩
  have hOffset : c.offset = front.length := by
    simpa [ofText] using hFront.offset
  have hRest : src = front ++ c.rest :=
    hFront.rest
  refine ⟨front, raw, (step s).2.cursor.rest, ?_, ?_, ?_, ?_,
    hReads.form⟩
  · rw [hRest, hReads.passes.rest, List.append_assoc]
  · rw [hToken, hReads.token, hOffset]
  · rw [hStop, hReads.stop, hToken, hReads.token,
      hReads.passes.offset]
  · rw [hToken, hReads.token]

theorem head?_of_comment
    {src : Bytes}
    {t : Lexed}
    (hMem : t ∈ tokens src)
    (hKind : t.token.kind = .comment) :
    t.token.text.head? = some 0x2f := by
  rcases exists_raw_of_mem_tokens hMem hKind with
    ⟨_, raw, _, _, _, _, hText, hForm⟩
  rw [hText]
  exact head?_text hForm

/- A written token starts at a byte that ends no line. -/
theorem exists_byte_of_mem_tokens
    {src : Bytes}
    {t : Lexed}
    (hMem : t ∈ tokens src)
    (hWritten : t.token.isImplied = false)
    (hKind : t.token.kind ≠ .eof) :
    ∃ b, src[t.token.offset]? = some b ∧ b ≠ 0x0a := by
  rcases exists_of_mem_tokens hMem with ⟨u, hFrom, hToken, _⟩
  rcases exists_leadsTo_of_mem_tokensFrom hFrom with
    ⟨s, hLeads, rfl⟩
  rw [hToken] at hWritten hKind ⊢
  rcases exists_afterPiece_of_step hWritten hKind with
    ⟨c, code, faults, hPlace, hCode, hLine, hStep⟩
  rcases (leadsTo_start src).trans (hLeads.trans hPlace) with
    ⟨front, hFront⟩
  have hOffset : c.offset = front.length := by
    simpa [ofText] using hFront.offset
  have hRest : src = front ++ c.rest :=
    hFront.rest
  have hHere : (step s).1.token.offset = c.offset := by
    rw [hStep]
    exact offset_afterPiece _ _ _
  cases hBytes : c.rest with
  | nil => exact absurd hBytes (rest_ne_nil_of_code? hCode)
  | cons b rest =>
      refine ⟨b, ?_, ?_⟩
      · rw [hHere, hOffset, hRest, hBytes]
        simp
      · rintro rfl
        rw [Number.code?_of_head hBytes (by decide)] at hCode
        exact hLine (Option.some.inj hCode).symm

------------------------------------------------------------
-- Line Comments
------------------------------------------------------------

/- The characters of ASCII that can be seen, and the blank. -/
def IsPrintable
    (w : Bytes) : Prop :=
  ∀ b ∈ w, 0x20 ≤ b ∧ b < 0x7f

instance
    (w : Bytes) :
    Decidable (IsPrintable w) :=
  inferInstanceAs (Decidable (∀ b ∈ w, 0x20 ≤ b ∧ b < 0x7f))

/- A line comment reaches to the end of its line. -/
theorem text_comment_of_line
    {c : Cursor}
    {w rest : Bytes}
    (hPrintable : IsPrintable w)
    (hRest : c.rest = 0x2f :: 0x2f :: w ++ 0x0a :: rest) :
    (comment c).text = 0x2f :: 0x2f :: w := by
  have hStarts : startsComment c.rest = true := by
    simp [startsComment, hRest]
  have hBlock : c.rest.startsWith [0x2f, 0x2a] = false := by
    simp [hRest, List.isPrefixOf_cons_cons]
  have hAscii :
      ∀ b ∈ w, (0 < b ∧ b < 0x80) ∧
        decide (b.toNat ≠ 0x0a) = true := by
    intro b hMem
    have hb := hPrintable b hMem
    simp only [UInt8.le_iff_toNat_le, UInt8.lt_iff_toNat_lt,
      decide_eq_true_eq] at hb ⊢
    simp only [UInt8.reduceToNat] at hb ⊢
    omega
  have hLineEnd (d : Cursor) (hd : d.rest = 0x0a :: rest) :
      d.arrive = [] ∧ d.code? = some 0x0a :=
    ⟨arrive_of_head hd (by decide) (by decide),
      Number.code?_of_head hd (by decide)⟩
  have hHere : (c.skip 2).arrive = [] := by
    cases w with
    | nil => exact (hLineEnd _ (by simp [skip, hRest])).1
    | cons b w =>
        have hb := (hAscii b List.mem_cons_self).1
        exact arrive_of_head (s := w ++ 0x0a :: rest)
          (by simp [skip, hRest]) hb.1 hb.2
  rcases skipWhile_of_ascii
      (p := fun n => decide (n ≠ 0x0a))
      (t := 0x0a :: rest) (c := c.skip 2) hAscii
      (fun d hd => (hLineEnd d hd).1)
      (fun d hd => skipWhile_of_not (hLineEnd d hd).2 rfl)
      hHere (by simp [skip, hRest]) with
    ⟨d, hSkip, hd⟩
  have hEnd : (comment c).cursor.rest = 0x0a :: rest := by
    simp only [comment, hBlock, Bool.false_eq_true, if_false]
    rw [hSkip]
    exact hd
  have hParts := (passes_comment hStarts).1.rest
  rw [hEnd, hRest] at hParts
  exact (List.append_cancel_right hParts).symm

theorem text_of_printable
    {w : Bytes}
    (hPrintable : IsPrintable w) :
    Comment.text (0x2f :: 0x2f :: w) = 0x2f :: 0x2f :: w := by
  have hKeep : ∀ b ∈ w, b ≠ 0x0d := by
    rintro b hMem rfl
    exact absurd (hPrintable _ hMem).1 (by decide)
  simpa [Comment.text]
    using hKeep

/- Two slashes at the beginning of a text start a comment. -/
theorem step_of_slashes
    (w : Bytes) :
    let c := ofText (0x2f :: 0x2f :: w)
    start (0x2f :: 0x2f :: w) = (⟨c, false, none⟩, []) ∧
      step ⟨c, false, none⟩ = afterPiece false c (comment c) := by
  intro c
  have hRest : c.rest = 0x2f :: 0x2f :: w :=
    rfl
  have hCode : c.code? = some 0x2f :=
    Number.code?_of_head hRest (by decide)
  have hBehind :
      State.behindBlanks ⟨c, false, none⟩ = (c, []) :=
    skipWhile_of_not hCode rfl
  have hName : isNameStart 0x2f = false := by
    decide +kernel
  have hPiece : piece c 0x2f = comment c := by
    simp [piece, hName, hRest, startsNumber, startsComment,
      isAsciiDigit]
  have hArrive : c.arrive = [] :=
    arrive_of_head hRest (by decide) (by decide)
  constructor
  · simp [start, hCode, hArrive, c]
  · rw [step_of_piece rfl (by rw [hBehind]; exact hCode) (by decide),
      hBehind, hPiece]
    rfl

/- At the beginning of a text it is the first token. -/
theorem tokens_of_lineComment
    {w : Bytes}
    (rest : Bytes)
    (hPrintable : IsPrintable w) :
    ∃ t ts,
      tokens (0x2f :: 0x2f :: w ++ 0x0a :: rest) = t :: ts ∧
        t.token = ⟨.comment, 0, 0x2f :: 0x2f :: w⟩ := by
  rcases step_of_slashes (w ++ 0x0a :: rest) with ⟨hStart, hStep⟩
  simp only [List.cons_append]
  generalize hSrc :
    0x2f :: 0x2f :: (w ++ 0x0a :: rest) = src at hStart hStep ⊢
  have hText : (comment (ofText src)).text = 0x2f :: 0x2f :: w :=
    text_comment_of_line hPrintable hSrc.symm
  have hToken :
      (step ⟨ofText src, false, none⟩).1.token =
        ⟨.comment, 0, 0x2f :: 0x2f :: w⟩ := by
    rw [hStep, token_afterPiece rfl, hText,
      text_of_printable hPrintable]
    rfl
  have hTokens := map_token_tokens src
  rw [hStart, tokensFrom_of_not_eof (by rw [hToken]; simp),
    List.map_cons, hToken] at hTokens
  cases hAll : tokens src with
  | nil =>
      rw [hAll] at hTokens
      cases hTokens
  | cons t ts =>
      rw [hAll, List.map_cons] at hTokens
      exact ⟨t, ts, rfl, (List.cons.inj hTokens).1⟩

end Scanner

end Namesake
