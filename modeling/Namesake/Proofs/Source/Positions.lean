import Namesake.Proofs.Directive.Placement
import Namesake.Proofs.Scanner.Comments
import Namesake.Proofs.Source.Docs
import Namesake.Proofs.Source.Lines

/-
  Positions of directives in source files.  The file knows the
  position of every byte; a directive knows that of the first
  byte of each of its lines and counts on from there.  The two
  agree exactly where counting is right: the position of the
  byte is known, its column is known, and no carriage return,
  which comments lose, stands before it.

  Main declarations:
    * `DocLine.IsByte`
    * `Source.Lines.Counts`
    * `Source.File.exists_isByte`
    * `Source.File.site_positions_agree_iff`
    * `Source.File.site_start_differs_behind_mark`
-/

namespace Namesake

open Directive (IsCutFrom Stretch locate joined isMargin)

------------------------------------------------------------
-- Bytes of a Line
------------------------------------------------------------

namespace DocLine

/- The source text from the start of a line up to an offset. -/
def sourceUpTo
    (line : DocLine)
    (src : Bytes)
    (o : Nat) : Bytes :=
  Source.slice src line.position.offset.toNat o

/-
  Byte `n` of a line is byte `o` of the source text: the same
  byte, and what stands before it on the line is what stands
  before it in the text, without carriage returns.
-/
structure IsByte
    (src : Bytes)
    (line : DocLine)
    (n o : Nat) : Prop where
  behind : line.position.offset ≤ o
  before :
    (line.sourceUpTo src o).filter (· ≠ 0x0d) = line.text.take n
  byte : ∃ b, line.text[n]? = some b ∧ src[o]? = some b

end DocLine

/- A byte that a filter keeps, in the list. -/
theorem exists_index_of_filter
    {keep : UInt8 → Bool}
    {raw : Bytes}
    {n : Nat}
    (h : n < (raw.filter keep).length) :
    ∃ k < raw.length,
      raw[k]? = (raw.filter keep)[n]? ∧
        (raw.take k).filter keep = (raw.filter keep).take n := by
  induction raw generalizing n with
  | nil => cases h
  | cons b raw ih =>
      by_cases hKeep : keep b = true
      · rw [List.filter_cons_of_pos hKeep] at h ⊢
        cases n with
        | zero => exact ⟨0, Nat.succ_pos _, rfl, rfl⟩
        | succ n =>
            rcases ih (Nat.lt_of_succ_lt_succ h) with
              ⟨k, hInside, hByte, hBefore⟩
            refine ⟨k + 1, Nat.succ_lt_succ hInside, hByte, ?_⟩
            rw [List.take_succ_cons,
              List.filter_cons_of_pos hKeep, hBefore,
              List.take_succ_cons]
      · rw [List.filter_cons_of_neg hKeep] at h ⊢
        rcases ih h with ⟨k, hInside, hByte, hBefore⟩
        refine ⟨k + 1, Nat.succ_lt_succ hInside, hByte, ?_⟩
        rw [List.take_succ_cons,
          List.filter_cons_of_neg hKeep, hBefore]

namespace Source

/-
  Counting bytes along a line is right up to an offset of the
  source text.
-/
structure Lines.Counts
    (f : Lines)
    (src : Bytes)
    (line : DocLine)
    (o : Nat) : Prop where
  valid : (f.position o).isValid = true
  column : f.knowsColumn o = true
  noReturn : 0x0d ∉ line.sourceUpTo src o

theorem slice_append
    (front raw rest : Bytes)
    {k : Nat}
    (h : k ≤ raw.length) :
    slice (front ++ raw ++ rest) front.length
        (front.length + k) =
      raw.take k := by
  rw [slice, List.append_assoc, List.drop_left,
    Nat.add_sub_cancel_left, List.take_append_of_le_length h]

------------------------------------------------------------
-- Comments
------------------------------------------------------------

namespace Lines

/- A line comment is on one line. -/
theorem sameLine_of_comment
    {path src front raw rest : Bytes}
    {t : Scanner.Lexed}
    {k : Nat}
    (hMem : t ∈ Scanner.tokens src)
    (hKind : t.token.kind = .comment)
    (hSrc : src = front ++ raw ++ rest)
    (hFront : front.length = t.token.offset)
    (hStop : t.stop = t.token.offset + raw.length)
    (hLine : 0x0a ∉ raw)
    (hInside : k < raw.length) :
    (ofText path src (Scanner.tokens src)).SameLine
      t.token.offset (t.token.offset + k) := by
  refine ⟨Nat.le_add_right _ _, ?_, ?_⟩
  · intro x hStart hUpTo
    rw [starts_ofText] at hStart
    rcases List.mem_cons.mp hStart with rfl | hStart
    · exact Nat.zero_le _
    · rcases lineEnd_of_mem_startsFrom hStart with
        ⟨hPos, hByte⟩
      by_contra hBehind
      -- the line end in front of `x` would be in the comment
      have hIndex :
          x - (0 + 1) = front.length + (x - 1 - front.length) := by
        omega
      have hHere : x - 1 - front.length < raw.length := by
        omega
      rw [hSrc, hIndex, List.append_assoc,
        List.getElem?_append_right (Nat.le_add_right _ _),
        Nat.add_sub_cancel_left,
        List.getElem?_append_left hHere] at hByte
      exact hLine (List.mem_of_getElem? hByte)
  · intro m hMark hUpTo
    rcases exists_token_of_mem_addMarks hMark with
      hNone | ⟨u, hToken, l, hHas, hOffset⟩
    · cases hNone
    · rcases Scanner.mark_apart_of_mem_tokens hMem hKind hToken
          hHas with hBefore | hAfter
      · rw [← hOffset]
        exact hBefore
      · omega

end Lines

namespace File

/-
  Every byte of a line comment behind its first one is a byte
  of the source text, and counting to it from the first one
  gives its position exactly if counting is right.
-/
theorem exists_isByte
    {path src body : Bytes}
    {f : File}
    {item : Item}
    {line : DocLine}
    {n : Nat}
    (hParse : parse path src = .ok f)
    (hItem : item ∈ f.items)
    (hLine : line ∈ item.doc)
    (hBody : line.body? = some body)
    (hPos : 0 < n)
    (hInside : n < line.text.length) :
    ∃ o,
      line.IsByte src n o ∧
        (line.position.shift n =
            (Source.parse path src).lines.position o ↔
          (Source.parse path src).lines.Counts src line o) := by
  rcases exists_token_of_parse hParse hItem hLine with
    ⟨t, hMem, hKind, hText, hPosition⟩
  rcases Scanner.exists_raw_of_mem_tokens hMem hKind with
    ⟨front, raw, rest, hSrc, hFront, hStop, hRaw, hForm⟩
  rw [DocLine.body?, hText, hRaw] at hBody
  rcases Scanner.text_of_lineComment hForm hBody with
    ⟨hOneLine, hFilter⟩
  have hKept : line.text = raw.filter (· ≠ 0x0d) := by
    rw [hText, hRaw, hFilter]
  rw [hKept] at hInside
  rcases exists_index_of_filter hInside with
    ⟨k, hHere, hByte, hBefore⟩
  have hSame :
      (Source.parse path src).lines.SameLine t.token.offset
        (t.token.offset + k) :=
    Lines.sameLine_of_comment hMem hKind hSrc hFront hStop
      hOneLine hHere
  have hOffset : line.position.offset = t.token.offset := by
    rw [hPosition, Lines.offset_position]
  have hUpTo :
      line.sourceUpTo src (t.token.offset + k) =
        raw.take k := by
    rw [DocLine.sourceUpTo, hOffset, Int.toNat_natCast, hSrc,
      ← hFront]
    exact slice_append front raw rest (Nat.le_of_lt hHere)
  have hCount :
      ((raw.take k).filter (· ≠ 0x0d)).length = n := by
    rw [hBefore, List.length_take]
    exact Nat.min_eq_left (Nat.le_of_lt hInside)
  have hWidth : (raw.take k).length = k := by
    rw [List.length_take]
    exact Nat.min_eq_left (Nat.le_of_lt hHere)
  have hFar : n ≤ k := by
    have hLess :=
      List.length_filter_le (· ≠ 0x0d) (raw.take k)
    rw [hCount, hWidth] at hLess
    exact hLess
  have hReturns :
      0x0d ∉ raw.take k ↔
        t.token.offset + k = t.token.offset + n := by
    have hAll :=
      List.length_filter_eq_length_iff (p := (· ≠ 0x0d))
        (l := raw.take k)
    rw [hCount, hWidth] at hAll
    rw [Nat.add_left_cancel_iff, eq_comm (a := k), hAll]
    constructor
    · rintro hNone b hByte
      refine decide_eq_true ?_
      rintro rfl
      exact hNone hByte
    · intro hKeeps hReturn
      exact of_decide_eq_true (hKeeps _ hReturn) rfl
  refine ⟨t.token.offset + k, ⟨?_, ?_, ?_⟩, ?_⟩
  · rw [hOffset]
    exact Int.ofNat_le.mpr (Nat.le_add_right _ _)
  · rw [hUpTo, hBefore, hKept]
  · refine ⟨(raw.filter (· ≠ 0x0d))[n], ?_, ?_⟩
    · rw [hKept, List.getElem?_eq_getElem hInside]
    · rw [List.getElem?_eq_getElem hInside] at hByte
      rw [← hByte, hSrc, ← hFront, List.append_assoc,
        List.getElem?_append_right (Nat.le_add_right _ _),
        Nat.add_sub_cancel_left,
        List.getElem?_append_left hHere]
  · rw [hPosition,
      Lines.shift_position_eq_iff hSame hPos (by omega),
      ← hReturns, ← hUpTo]
    exact ⟨fun h => ⟨h.1, h.2.1, h.2.2⟩,
      fun h => ⟨h.valid, h.column, h.noReturn⟩⟩

------------------------------------------------------------
-- Sites
------------------------------------------------------------

/-
  The position that is reported for an offset of the argument
  text is that of the source byte it stands for exactly if
  counting is right there.
-/
def AgreesIff
    (lines : Lines)
    (src : Bytes)
    (ss : List Stretch)
    (offset : Nat)
    (reported : Position) : Prop :=
  ∃ s o,
    ss[(locate ss offset).1]? = some s ∧
      s.line.IsByte src (locate ss offset).2 o ∧
      (reported = lines.position o ↔ lines.Counts src s.line o)

theorem agreesIff_position
    {path src name : Bytes}
    {f : File}
    {item : Item}
    {d : Directive}
    {before after : List DocLine}
    {ss : List Stretch}
    {offset : Nat}
    {b : UInt8}
    (hParse : parse path src = .ok f)
    (hItem : item ∈ f.items)
    (hDoc : item.doc = before ++ ss.map Stretch.line ++ after)
    (hCut : IsCutFrom name d ss)
    (hByte : d.arguments[offset]? = some b)
    (hLine : b ≠ 0x0a) :
    AgreesIff (Source.parse path src).lines src ss offset
      (d.position offset) := by
  have hLess : offset < d.arguments.length :=
    (List.getElem?_eq_some_iff.mp hByte).1
  have hPrefix : [b] <+: (joined ss).drop offset := by
    have hHead : d.arguments[offset] = b :=
      (List.getElem?_eq_some_iff.mp hByte).2
    rw [← hCut.arguments,
      List.drop_append_of_le_length (Nat.le_of_lt hLess),
      List.drop_eq_getElem_cons hLess, hHead]
    exact ⟨_, rfl⟩
  rcases Directive.exists_stretch_of_isPrefix
      (hCut.lt_length_joined (Nat.le_of_lt hLess)) hPrefix
      (by simpa using hLine.symm) with
    ⟨s, hNth, hHere, _⟩
  have hMem := List.mem_of_getElem? hNth
  rcases hCut.slashed s hMem with ⟨hSkip, body, hBody⟩
  have hOn : s.line ∈ item.doc := by
    rw [hDoc]
    simp only [List.mem_append, List.mem_map]
    exact Or.inl (Or.inr ⟨s, hMem, rfl⟩)
  have hInside : (locate ss offset).2 < s.line.text.length := by
    have hLength := hHere.length_le
    simp only [List.length_drop, List.length_singleton]
      at hLength
    omega
  have hPos : 0 < (locate ss offset).2 :=
    Nat.lt_of_lt_of_le (by decide : 0 < slashes.length)
      (Nat.le_trans hSkip (Directive.skip_le_locate hNth))
  rcases exists_isByte hParse hItem hOn hBody hPos hInside with
    ⟨o, hIs, hIff⟩
  rw [hCut.position_eq (Nat.le_of_lt hLess) hNth]
  exact ⟨s, o, hNth, hIs, hIff⟩

/- The at sign of a directive. -/
theorem exists_start_isByte
    {path src name : Bytes}
    {f : File}
    {item : Item}
    {d : Directive}
    {before after : List DocLine}
    {ss : List Stretch}
    (hParse : parse path src = .ok f)
    (hItem : item ∈ f.items)
    (hDoc : item.doc = before ++ ss.map Stretch.line ++ after)
    (hCut : IsCutFrom name d ss) :
    ∃ line margin rest o,
      (ss.map Stretch.line).head? = some line ∧
        line.text =
          slashes ++ margin ++ 0x40 :: (name ++ rest) ∧
        (∀ b ∈ margin, isMargin b = true) ∧
        line.IsByte src (slashes ++ margin).length o ∧
        (d.span.start =
            (Source.parse path src).lines.position o ↔
          (Source.parse path src).lines.Counts src line o) := by
  rcases hCut.start_eq with
    ⟨line, margin, rest, hHead, hText, hMargin, hStart⟩
  have hFirst := List.mem_of_mem_head? hHead
  have hOn : line ∈ item.doc := by
    rw [hDoc]
    exact List.mem_append_left _
      (List.mem_append_right _ hFirst)
  rcases List.mem_map.mp hFirst with ⟨s, hMem, rfl⟩
  rcases (hCut.slashed s hMem).2 with ⟨body, hBody⟩
  have hInside :
      (slashes ++ margin).length < s.line.text.length := by
    simp only [hText, List.length_append, List.length_cons]
    omega
  have hPos : 0 < (slashes ++ margin).length := by
    rw [List.length_append]
    exact Nat.lt_of_lt_of_le (by decide : 0 < slashes.length)
      (Nat.le_add_right _ _)
  rcases exists_isByte hParse hItem hOn hBody hPos hInside with
    ⟨o, hIs, hIff⟩
  rw [hStart]
  exact ⟨s.line, margin, rest, o, hHead, hText, hMargin, hIs,
    hIff⟩

/-
  What a site reports and what its file says.  The start of
  the directive is the position of its at sign, the start of
  an alias that of its name and the start of an error at a
  token that of the token, each exactly if counting along the
  line is right up to that byte of the source text.
-/
theorem site_positions_agree_iff
    {path src name : Bytes}
    {f : File}
    {site : Site}
    (hParse : parse path src = .ok f)
    (hSite : site ∈ (f.sites name).1) :
    let lines := (Source.parse path src).lines
    let d := site.directive
    ∃ before ss after,
      site.item.doc = before ++ ss.map Stretch.line ++ after ∧
        IsCutFrom name d ss ∧
        (∃ line margin rest o,
          (ss.map Stretch.line).head? = some line ∧
            line.text =
              slashes ++ margin ++ 0x40 :: (name ++ rest) ∧
            (∀ b ∈ margin, isMargin b = true) ∧
            line.IsByte src (slashes ++ margin).length o ∧
            (d.span.start = lines.position o ↔
              lines.Counts src line o)) ∧
        (∀ entries,
          Arguments.read d.arguments = .ok entries →
            d.aliases =
                .ok (entries.map (Alias.ofEntry d.position)) ∧
              ∀ e ∈ entries,
                AgreesIff lines src ss e.offset
                  (Alias.ofEntry d.position e).span.start) ∧
        ∀ e,
          Arguments.read d.arguments = .error e →
            d.aliases = .error (Alias.diagnose d.position e) ∧
              ∀ t ∈ Scanner.tokens d.arguments,
                t.token.isImplied = false →
                  t.token.kind ≠ .eof →
                  t.token.offset = e.offset →
                  AgreesIff lines src ss e.offset
                    (Alias.diagnose d.position e).span.start := by
  rcases mem_items_of_mem_sites hSite with ⟨hItem, hFind⟩
  rcases Directive.exists_isCutFrom_of_find hFind with
    ⟨before, ss, after, hDoc, hCut⟩
  have hAgrees
      {t : Scanner.Lexed}
      (hMem : t ∈ Scanner.tokens site.directive.arguments)
      (hWritten : t.token.isImplied = false)
      (hKind : t.token.kind ≠ .eof) :
      AgreesIff (Source.parse path src).lines src ss
        t.token.offset
        (site.directive.position t.token.offset) := by
    rcases Scanner.exists_byte_of_mem_tokens hMem hWritten
        hKind with ⟨b, hByte, hLine⟩
    exact agreesIff_position hParse hItem hDoc hCut hByte hLine
  refine ⟨before, ss, after, hDoc, hCut, ?_, ?_, ?_⟩
  · exact exists_start_isByte hParse hItem hDoc hCut
  · intro entries hRead
    refine ⟨?_, ?_⟩
    · rw [Directive.aliases, Alias.parse, hRead]
    · intro e hEntry
      rcases List.mem_map.mp
          ((Arguments.sublist_of_read hRead).subset
            (List.mem_map_of_mem hEntry)) with
        ⟨t, hMem, hToken⟩
      have hHere : t.token.offset = e.offset := by
        rw [hToken]
        rfl
      have hName := hAgrees hMem
        (by rw [hToken]; rfl) (by simp [hToken, Arguments.Entry.token])
      rw [hHere] at hName
      exact hName
  · intro e hRead
    refine ⟨?_, ?_⟩
    · rw [Directive.aliases, Alias.parse, hRead]
    · intro t hMem hWritten hKind hHere
      have hToken := hAgrees hMem hWritten hKind
      rw [hHere] at hToken
      exact hToken

/- A mark that gives a line but no column, then a directive. -/
def markedText : Bytes :=
  utf8
    "package p\n\n//line x.go:10\n// @alias(A)\nfunc F() \x7b\x7d\n"

theorem exists_site_of_markedText :
    ∃ f site,
      parse (utf8 "a.go") markedText = .ok f ∧
        site ∈ (f.sites (utf8 "alias")).1 ∧
        site.directive.span.start =
          ⟨utf8 "x.go", 29, 10, 3⟩ := by
  have hStarts :
      ((parse (utf8 "a.go") markedText).map fun f =>
          (f.sites (utf8 "alias")).1.map fun site =>
            site.directive.span.start) =
        .ok [⟨utf8 "x.go", 29, 10, 3⟩] := by
    decide +kernel
  rcases exists_of_map_parse hStarts with ⟨f, hParse, hOne⟩
  rcases List.map_eq_singleton_iff.mp hOne with
    ⟨site, hSites, hStart⟩
  refine ⟨f, site, hParse, ?_, hStart⟩
  rw [hSites]
  exact List.mem_singleton_self site

/-
  Behind the mark columns are unknown to the file, but the
  directive counts on from the unknown column of its line.
-/
theorem site_start_differs_behind_mark :
    ∃ f site,
      parse (utf8 "a.go") markedText = .ok f ∧
        site ∈ (f.sites (utf8 "alias")).1 ∧
        markedText[29]? = some 0x40 ∧
        site.directive.span.start =
          ⟨utf8 "x.go", 29, 10, 3⟩ ∧
        (Source.parse (utf8 "a.go")
            markedText).lines.position 29 =
          ⟨utf8 "x.go", 29, 10, 0⟩ := by
  have hByte : markedText[29]? = some 0x40 := by
    decide +kernel
  have hPosition :
      (Source.parse (utf8 "a.go")
          markedText).lines.position 29 =
        ⟨utf8 "x.go", 29, 10, 0⟩ := by
    decide +kernel
  rcases exists_site_of_markedText with
    ⟨f, site, hParse, hSite, hStart⟩
  exact ⟨f, site, hParse, hSite, hByte, hStart, hPosition⟩

theorem marked_site_start_agrees_iff :
    ∃ f site,
      parse (utf8 "a.go") markedText = .ok f ∧
        site ∈ (f.sites (utf8 "alias")).1 ∧
        ∃ line ∈ site.item.doc,
          ∃ n o,
            line.IsByte markedText n o ∧
              (site.directive.span.start =
                  (Source.parse (utf8 "a.go")
                    markedText).lines.position o ↔
                (Source.parse (utf8 "a.go")
                  markedText).lines.Counts markedText line o) := by
  rcases exists_site_of_markedText with
    ⟨f, site, hParse, hSite, _⟩
  rcases site_positions_agree_iff hParse hSite with
    ⟨before, ss, after, hDoc, _,
      ⟨line, margin, rest, o, hHead, _, _, hIs, hIff⟩, _⟩
  refine ⟨f, site, hParse, hSite, line, ?_, _, o, hIs, hIff⟩
  rw [hDoc]
  exact List.mem_append_left _
    (List.mem_append_right _ (List.mem_of_mem_head? hHead))

end File

end Source

end Namesake
