import Namesake.Proofs.Scanner.Comments
import Namesake.Proofs.Source.Comments
import Namesake.Proofs.Source.Docs
import Namesake.Source.File

/-
  The comment lines of a declaration.  They are the comments
  given to it, each with line feeds for the space behind it,
  so the space can be read off the lines: a blank line behind
  a comment is always kept, the end of a line only behind a
  block comment.  The comments behind a declaration that
  belong to it are part of its text.

  Main declarations:
    * `Source.Gap.startLines_append`
    * `Source.Gap.exists_of_startLines_eq`
    * `Source.Gap.hasFloating_startLines_iff`
    * `Source.File.IsLed`
    * `Source.File.exists_isLed_of_parse`
    * `Source.File.exists_isTrailed_of_parse`
-/

namespace Namesake

namespace Source

namespace Gap

variable {lines : Lines}

------------------------------------------------------------
-- Lines of Comments
------------------------------------------------------------

/- The offset at which what follows a comment starts. -/
def follower
    (next : Nat)
    (cs : List Comment) : Nat :=
  (cs.head?.map Comment.pos).getD next

/- The line feeds behind a comment that others follow. -/
def feedsBehind
    (lines : Lines)
    (next : Nat)
    (c : Comment)
    (cs : List Comment) : List Bytes :=
  feeds c (distance lines c.stop (follower next cs))

theorem eq_lineFeed_of_mem_feeds
    {c : Comment}
    {ends : Nat}
    {line : Bytes}
    (h : line ∈ feeds c ends) :
    line = [0x0a] :=
  List.eq_of_mem_replicate h

theorem feeds_of_isBlock
    {c : Comment}
    (ends : Nat)
    (h : c.isBlock = true) :
    feeds c ends = List.replicate (min ends 2) [0x0a] := by
  unfold feeds
  rw [if_pos h]
  rfl

theorem feeds_of_line
    {c : Comment}
    (ends : Nat)
    (h : c.isBlock = false) :
    feeds c ends = List.replicate (min ends 2 - 1) [0x0a] := by
  unfold feeds
  rw [if_neg (Bool.eq_false_iff.mp h)]

theorem startLines_cons
    (next : Nat)
    (c : Comment)
    (cs : List Comment) :
    startLines lines next (c :: cs) =
      c.text ::
        (feedsBehind lines next c cs ++
          startLines lines next cs) := by
  cases cs with
  | nil =>
      rw [startLines, startLines, List.append_nil]
      rfl
  | cons d cs =>
      rw [startLines]
      rfl

theorem follower_append
    (next : Nat)
    (front rest : List Comment) :
    follower next (front ++ rest) =
      follower (follower next rest) front := by
  cases front <;> rfl

/- Comments are kept part by part. -/
theorem startLines_append
    (next : Nat)
    (front rest : List Comment) :
    startLines lines next (front ++ rest) =
      startLines lines (follower next rest) front ++
        startLines lines next rest := by
  induction front with
  | nil => rfl
  | cons c front ih =>
      rw [List.cons_append, startLines_cons, startLines_cons,
        ih, feedsBehind, follower_append, feedsBehind]
      simp only [List.cons_append, List.append_assoc]

/- Without the line feeds the texts of the comments are left. -/
theorem filter_startLines
    (next : Nat)
    {cs : List Comment}
    (hTexts : ∀ c ∈ cs, c.text ≠ [0x0a]) :
    (startLines lines next cs).filter (· ≠ [0x0a]) =
      cs.map Comment.text := by
  induction cs with
  | nil => rfl
  | cons c cs ih =>
      rcases List.forall_mem_cons.mp hTexts with ⟨hText, hLater⟩
      have hFeeds :
          (feedsBehind lines next c cs).filter (· ≠ [0x0a]) =
            [] := by
        rw [List.filter_eq_nil_iff]
        intro line hMem
        simpa using eq_lineFeed_of_mem_feeds hMem
      rw [startLines_cons, List.filter_cons_of_pos (by simpa),
        List.filter_append, hFeeds, ih hLater, List.nil_append,
        List.map_cons]

/-
  A line that is no line feed is a comment in its place: what
  stands before it are the lines of the comments before it,
  and behind it stand its line feeds and those of the others.
-/
theorem exists_of_startLines_eq
    {next : Nat}
    {cs : List Comment}
    {front rest : List Bytes}
    {text : Bytes}
    (h : startLines lines next cs = front ++ text :: rest)
    (hText : text ≠ [0x0a]) :
    ∃ before c after,
      cs = before ++ c :: after ∧ c.text = text ∧
        front = startLines lines c.pos before ∧
        rest =
          feedsBehind lines next c after ++
            startLines lines next after := by
  induction cs generalizing front with
  | nil =>
      rw [startLines] at h
      simp at h
  | cons c cs ih =>
      rw [startLines_cons] at h
      cases front with
      | nil =>
          rw [List.nil_append, List.cons.injEq] at h
          exact ⟨[], c, cs, rfl, h.1, rfl, h.2.symm⟩
      | cons line front =>
          rw [List.cons_append, List.cons.injEq] at h
          -- the line feeds of `c` come before `text`
          have hLater :
              ∃ later,
                front = feedsBehind lines next c cs ++ later ∧
                  startLines lines next cs =
                    later ++ text :: rest := by
            rcases List.append_eq_append_iff.mp h.2 with
              ⟨later, hFront, hLines⟩ | ⟨feeds', hFeeds, hLines⟩
            · exact ⟨later, hFront, hLines⟩
            · cases feeds' with
              | nil =>
                  rw [List.append_nil] at hFeeds
                  exact ⟨[], by rw [hFeeds, List.append_nil],
                    hLines.symm⟩
              | cons line' feeds' =>
                  rw [List.cons_append, List.cons.injEq] at hLines
                  refine absurd ?_ hText
                  apply eq_lineFeed_of_mem_feeds
                  · show text ∈ feedsBehind lines next c cs
                    rw [hFeeds, hLines.1]
                    simp
          rcases hLater with ⟨later, hFront, hLines⟩
          rcases ih hLines with
            ⟨before, c', after, rfl, hSame, hBefore, hAfter⟩
          refine ⟨c :: before, c', after, rfl, hSame, ?_, hAfter⟩
          rw [startLines_cons, hFront, ← h.1, hBefore]
          unfold feedsBehind
          rw [follower_append]
          rfl

------------------------------------------------------------
-- Floating Comments
------------------------------------------------------------

/- What a blank line behind a comment is kept as. -/
def blankBehind
    (text : Bytes) : List Bytes :=
  feeds { pos := 0, text } 2

/- Is one of the comments followed by a blank line? -/
def HasFloating
    (start : List Bytes) : Prop :=
  ∃ front text rest,
    text ≠ [0x0a] ∧
      start = front ++ text :: (blankBehind text ++ rest)

/- Is there a blank line between a comment and what follows it? -/
def HasBlank
    (lines : Lines)
    (next : Nat)
    (cs : List Comment) : Prop :=
  ∃ before c after,
    cs = before ++ c :: after ∧
      2 ≤ distance lines c.stop (follower next after)

/- A comment, not the line feeds before it, comes first. -/
theorem not_cons_lineFeed_isPrefix
    {next : Nat}
    {cs : List Comment}
    (hTexts : ∀ c ∈ cs, c.text ≠ [0x0a])
    (rest : List Bytes) :
    ¬ [0x0a] :: rest <+: startLines lines next cs := by
  intro hPrefix
  cases cs with
  | nil => exact absurd hPrefix (by simp [startLines])
  | cons c cs =>
      rw [startLines_cons, List.cons_prefix_cons] at hPrefix
      exact hTexts c List.mem_cons_self hPrefix.1.symm

/- A blank line is always kept, and nothing else looks like one. -/
theorem blankBehind_isPrefix_iff
    (next : Nat)
    (c : Comment)
    {cs : List Comment}
    (hTexts : ∀ c ∈ cs, c.text ≠ [0x0a]) :
    blankBehind c.text <+:
        feedsBehind lines next c cs ++ startLines lines next cs ↔
      2 ≤ distance lines c.stop (follower next cs) := by
  have hBlank : blankBehind c.text = feeds c 2 := rfl
  rw [hBlank, feedsBehind]
  generalize distance lines c.stop (follower next cs) = ends
  constructor
  · intro hPrefix
    by_contra hFew
    -- with fewer line ends a comment stands where a line feed should
    have hMore :
        ∃ more, feeds c 2 = feeds c ends ++ [0x0a] :: more := by
      have hOwn : (if c.isBlock then 0 else 1) ≤ 1 := by
        split <;> omega
      unfold feeds
      simp only
      generalize (if c.isBlock then 0 else 1) = own at hOwn ⊢
      rcases Nat.exists_eq_add_of_lt
          (show min ends 2 - own < min 2 2 - own by omega) with
        ⟨k, hCount⟩
      refine ⟨List.replicate k [0x0a], ?_⟩
      rw [hCount, ← List.replicate_succ, Nat.add_assoc,
        ← List.replicate_append_replicate]
    rcases hMore with ⟨more, hMore⟩
    rw [hMore, List.prefix_append_right_inj] at hPrefix
    exact not_cons_lineFeed_isPrefix hTexts more hPrefix
  · intro hMany
    have hSame : feeds c ends = feeds c 2 := by
      unfold feeds
      rw [Nat.min_eq_right hMany, Nat.min_self]
    rw [hSame]
    exact List.prefix_append _ _

/- Comments float exactly if a blank line is behind one of them. -/
theorem hasFloating_startLines_iff
    {next : Nat}
    {cs : List Comment}
    (hTexts : ∀ c ∈ cs, c.text ≠ [0x0a]) :
    HasFloating (startLines lines next cs) ↔
      HasBlank lines next cs := by
  constructor
  · rintro ⟨front, text, rest, hText, hLines⟩
    rcases exists_of_startLines_eq hLines hText with
      ⟨before, c, after, rfl, rfl, _, hRest⟩
    refine ⟨before, c, after, rfl, ?_⟩
    rw [← blankBehind_isPrefix_iff next c fun c' hMem =>
      hTexts c' (by simp [hMem])]
    exact ⟨rest, hRest⟩
  · rintro ⟨before, c, after, rfl, hMany⟩
    rw [← blankBehind_isPrefix_iff next c fun c' hMem =>
      hTexts c' (by simp [hMem])] at hMany
    rcases hMany with ⟨rest, hRest⟩
    refine ⟨startLines lines c.pos before, c.text, rest,
      hTexts c (by simp), ?_⟩
    rw [hRest, startLines_append, startLines_cons]
    rfl

------------------------------------------------------------
-- Shares
------------------------------------------------------------

/- Splitting off comments keeps their order. -/
theorem splitNear_append
    (limit stop : Nat)
    (cs : List Comment) :
    (splitNear lines limit stop cs).1 ++
        (splitNear lines limit stop cs).2 =
      cs := by
  induction cs generalizing stop with
  | nil => rfl
  | cons c cs ih =>
      rw [splitNear]
      split
      · simp only [List.cons_append, ih]
      · rfl

theorem splitNear_isSuffix
    (lines : Lines)
    (limit stop : Nat)
    (cs : List Comment) :
    (splitNear lines limit stop cs).2 <:+ cs :=
  ⟨_, splitNear_append limit stop cs⟩

theorem stopOf_append
    (stop : Nat)
    (front rest : List Comment) :
    stopOf stop (front ++ rest) =
      stopOf (stopOf stop front) rest := by
  cases hLast : rest.getLast? with
  | none =>
      rw [List.getLast?_eq_none_iff.mp hLast, List.append_nil]
      rfl
  | some c =>
      simp [stopOf, List.getLast?_append, hLast]

/-
  The comments behind a part that belong to it: those on its
  last line, and those below it if a blank line follows them
  and none is before them.  If nothing follows, all of them do.
-/
def behind
    (lines : Lines)
    (comments : List Comment)
    (stop : Nat) : (next : Option Nat) → List Comment
  | none => comments
  | some next =>
      let near := splitNear lines 0 stop comments
      let stop := stopOf stop near.1
      let below := splitNear lines 1 stop near.2
      let first := (below.2.head?.map Comment.pos).getD next
      if 2 ≤ distance lines (stopOf stop below.1) first then
        near.1 ++ below.1
      else
        near.1

/- A part reaches up to the last comment that belongs to it. -/
theorem stop_between
    (cs : List Comment)
    (stop : Nat)
    (next : Option Nat) :
    (between lines cs stop next).stop =
      stopOf stop (behind lines cs stop next) := by
  cases next with
  | none => rfl
  | some next =>
      unfold between behind
      simp only
      split
      · exact (stopOf_append _ _ _).symm
      · rfl

/- What comes behind a gap is given the last of its comments. -/
theorem exists_start_between
    (cs : List Comment)
    (stop next : Nat) :
    ∃ given,
      given <:+ cs ∧
        (between lines cs stop (some next)).start =
          startLines lines next given := by
  have hRest := splitNear_isSuffix lines 0 stop cs
  unfold between
  simp only
  split
  · exact ⟨_, (splitNear_isSuffix _ _ _ _).trans hRest, rfl⟩
  · exact ⟨_, hRest, rfl⟩

end Gap

------------------------------------------------------------
-- Declarations of a File
------------------------------------------------------------

namespace File

/-
  A declaration as it is written: the comments it is given are
  comments in front of it, and its comment lines are theirs.
-/
structure IsLed
    (lines : Lines)
    (comments : List Comment)
    (item : Item)
    (d : TopDecl)
    (cs : List Comment) : Prop where
  body : item.decl.body = d.toBody
  doc : item.doc = docLines lines d.doc
  before : ∀ c ∈ cs, c ∈ comments ∧ c.pos < d.pos
  start : item.decl.start = Gap.startLines lines d.pos cs

/- The first declaration behind a gap is given its comments. -/
def Leads
    (lines : Lines)
    (comments : List Comment)
    (gap : Gap)
    (d : TopDecl) : Prop :=
  ∃ cs,
    (∀ c ∈ cs, c ∈ comments ∧ c.pos < d.pos) ∧
      gap.start = Gap.startLines lines d.pos cs

theorem leads_between
    (lines : Lines)
    (comments : List Comment)
    (stop : Nat)
    (d : TopDecl) :
    Leads lines comments
      (Gap.between lines (commentsIn comments stop d.pos) stop
        (some d.pos)) d := by
  rcases Gap.exists_start_between
      (commentsIn comments stop d.pos) stop d.pos with
    ⟨given, hGiven, hStart⟩
  refine ⟨given, ?_, hStart⟩
  intro c hMem
  have hIn := hGiven.subset hMem
  rw [commentsIn, List.mem_filter] at hIn
  refine ⟨hIn.1, ?_⟩
  simpa using (Bool.and_eq_true_iff.mp hIn.2).2

theorem exists_isLed_of_mem_itemsFrom
    {src : Bytes}
    {lines : Lines}
    {comments : List Comment}
    {gap : Gap}
    {decls : List TopDecl}
    {item : Item}
    (hGap : ∀ d ∈ decls.head?, Leads lines comments gap d)
    (h : item ∈ itemsFrom src lines comments gap decls) :
    ∃ d ∈ decls, ∃ cs, IsLed lines comments item d cs := by
  induction decls generalizing gap with
  | nil => cases h
  | cons d decls ih =>
      rcases List.mem_cons.mp h with rfl | h
      · rcases hGap d rfl with ⟨cs, hBefore, hStart⟩
        exact ⟨d, List.mem_cons_self, cs, rfl, rfl, hBefore, hStart⟩
      · have hLater :
            ∃ d' ∈ decls, ∃ cs, IsLed lines comments item d' cs := by
          apply ih _ h
          intro next hNext
          simp only [Option.mem_def.mp hNext]
          exact leads_between lines comments d.stop next
        rcases hLater with ⟨d', hMem, hLed⟩
        exact ⟨d', List.mem_cons_of_mem d hMem, hLed⟩

/- The declarations of a file are those of its tree. -/
theorem exists_isLed_of_parse
    {path src : Bytes}
    {f : File}
    {item : Item}
    (hParse : parse path src = .ok f)
    (hItem : item ∈ f.items) :
    ∃ tree,
      (Source.parse path src).tree = some tree ∧
        ∃ d ∈ tree.decls, ∃ cs,
          IsLed (Source.parse path src).lines
            tree.comments.flatten item d cs := by
  rcases exists_tree_of_parse hParse with ⟨tree, hTree, rfl⟩
  refine ⟨tree, hTree, exists_isLed_of_mem_itemsFrom ?_ hItem⟩
  intro d hFirst
  simp only [Option.mem_def.mp hFirst]
  exact leads_between _ _ tree.name.stop d

/- The comments behind a declaration that belong to it. -/
def trailing
    (src : Bytes)
    (lines : Lines)
    (comments : List Comment)
    (d : TopDecl)
    (after : List TopDecl) : List Comment :=
  let next := after.head?.map TopDecl.pos
  Gap.behind lines
    (commentsIn comments d.stop (next.getD (src.length + 1)))
    d.stop next

/-
  A declaration as it is written among others: its text goes
  on up to the end of the last comment behind it.
-/
structure IsTrailed
    (src : Bytes)
    (lines : Lines)
    (comments : List Comment)
    (item : Item)
    (d : TopDecl)
    (after : List TopDecl) : Prop where
  body : item.decl.body = d.toBody
  written :
    item.decl.written =
      d.written src
        (Gap.stopOf d.stop (trailing src lines comments d after))

theorem exists_isTrailed_of_mem_itemsFrom
    {src : Bytes}
    {lines : Lines}
    {comments : List Comment}
    {gap : Gap}
    {decls : List TopDecl}
    {item : Item}
    (h : item ∈ itemsFrom src lines comments gap decls) :
    ∃ before d after,
      decls = before ++ d :: after ∧
        IsTrailed src lines comments item d after := by
  induction decls generalizing gap with
  | nil => cases h
  | cons d decls ih =>
      rcases List.mem_cons.mp h with rfl | h
      · refine ⟨[], d, decls, rfl, rfl, ?_⟩
        simp only [Gap.stop_between]
        rfl
      · rcases ih h with ⟨before, d', after, rfl, hTrailed⟩
        exact ⟨d :: before, d', after, rfl, hTrailed⟩

/- This holds for every declaration of a file. -/
theorem exists_isTrailed_of_parse
    {path src : Bytes}
    {f : File}
    {item : Item}
    (hParse : parse path src = .ok f)
    (hItem : item ∈ f.items) :
    ∃ tree before d after,
      (Source.parse path src).tree = some tree ∧
        tree.decls = before ++ d :: after ∧
        IsTrailed src (Source.parse path src).lines
          tree.comments.flatten item d after := by
  rcases exists_tree_of_parse hParse with ⟨tree, hTree, rfl⟩
  rcases exists_isTrailed_of_mem_itemsFrom hItem with
    ⟨before, d, after, hDecls, hTrailed⟩
  exact ⟨tree, before, d, after, hTree, hDecls, hTrailed⟩

/- No comment token is a line feed. -/
theorem text_ne_of_token
    {src text : Bytes}
    {t : Scanner.Lexed}
    {pos : Nat}
    (hMem : t ∈ Scanner.tokens src)
    (hToken : t.token = ⟨.comment, pos, text⟩) :
    text ≠ [0x0a] := by
  have hHead := Scanner.head?_of_comment hMem (by rw [hToken])
  rw [hToken] at hHead
  intro hText
  simp [hText] at hHead

/- So no comment of a tree is one. -/
theorem text_ne_of_mem_comments
    {path src : Bytes}
    {tree : Tree}
    {c : Comment}
    (hTree : (Source.parse path src).tree = some tree)
    (hMem : c ∈ tree.comments.flatten) :
    c.text ≠ [0x0a] := by
  rcases exists_token_of_mem_comments hTree hMem with
    ⟨t, hToken, hEq⟩
  exact text_ne_of_token hToken hEq

/- And no comment of a doc comment is one. -/
theorem text_ne_of_mem_doc
    {path src : Bytes}
    {tree : Tree}
    {d : TopDecl}
    {doc : List Comment}
    (hTree : (Source.parse path src).tree = some tree)
    (hDecl : d ∈ tree.decls)
    (hDoc : d.doc = some doc) :
    ∀ c ∈ doc, c.text ≠ [0x0a] := by
  intro c hMem
  have hComment : c ∈ d.doc.getD [] := by
    rw [hDoc]
    exact hMem
  rcases exists_token_of_readTokens hTree hDecl hComment with
    ⟨t, hToken, hEq⟩
  exact text_ne_of_token hToken hEq

theorem map_text_docLines
    (lines : Lines)
    (doc : List Comment) :
    (docLines lines (some doc)).map DocLine.text =
      doc.map Comment.text := by
  simp [docLines]

end File

end Source

end Namesake
