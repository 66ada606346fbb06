import Namesake.Proofs.Source.Trails

/-
  The comments of a tree.  Parsing never loses a comment that
  it has taken, and it takes the comments at the beginning of a
  text before anything else.  It adds nothing but comments of
  the text.

  Main declarations:
    * `Source.Parser.IsGathering` and `Source.Parser.IsCollecting`
    * `Source.Parser.KeepsComments`
    * `Source.Parser.mem_comments_of_file`
    * `Source.mem_comments_of_readTokens`
    * `Source.exists_token_of_mem_comments`
-/

namespace Namesake

namespace Source

namespace Parser

variable {i : Input}

------------------------------------------------------------
-- Collecting
------------------------------------------------------------

/- The same comments were collected, and the same ones lead. -/
structure SameComments
    (s t : State i) : Prop where
  comments : t.comments = s.comments
  leadComment : t.leadComment = s.leadComment

/- A relation that holds along taking a group of comments. -/
class IsGathering
    (R : State i → State i → Prop) : Prop extends IsPath R where
  same : ∀ {s t}, SameComments s t → R s t
  push :
    ∀ s (g : i.Group),
      R s { s with comments := g.comments :: s.comments }

section

variable {R : State i → State i → Prop} [IsGathering R]

instance :
    Follows R (shift : Parser i _) := by
  unfold shift
  refine follows_of_get fun s => ?_
  split
  · exact Follows.from s
  · exact followsFrom_set (IsGathering.same ⟨rfl, rfl⟩)

instance
    (gap fuel endLine : Nat) :
    Follows R (collectGroup gap fuel endLine : Parser i _) := by
  induction fuel generalizing endLine with
  | zero => exact inferInstanceAs (Follows R (pure _))
  | succ fuel ih =>
      unfold collectGroup
      infer_instance

instance
    (gap : Nat) :
    Follows R (group gap : Parser i _) := by
  unfold group
  have hPush
      (g : i.Group) :
      Follows R
        (modify fun s =>
          { s with comments := g.comments :: s.comments } :
          Parser i Unit) :=
    follows_modify fun s => IsGathering.push s g
  infer_instance

instance
    (fuel : Nat)
    (last : Option (i.Group × Nat)) :
    Follows R (groups fuel last) := by
  induction fuel generalizing last with
  | zero => exact inferInstanceAs (Follows R (pure _))
  | succ fuel ih =>
      unfold groups
      infer_instance

instance
    (g : Option i.Group) :
    Follows R
      (modify fun s => { s with lineComment := g } :
        Parser i PUnit) :=
  follows_modify fun _ => IsGathering.same ⟨rfl, rfl⟩

instance
    (started : Bool) :
    Follows R
      (modify fun s => { s with started } : Parser i PUnit) :=
  follows_modify fun _ => IsGathering.same ⟨rfl, rfl⟩

end

/- It may be any comments that lead the token. -/
class IsCollecting
    (R : State i → State i → Prop) : Prop extends IsGathering R where
  lead : ∀ s g, R s { s with leadComment := g }

variable {R : State i → State i → Prop} [IsCollecting R]

instance
    (g : Option i.Group) :
    Follows R
      (modify fun s => { s with leadComment := g } :
        Parser i PUnit) :=
  follows_modify fun s => IsCollecting.lead s g

/- Then it holds along taking a token. -/
theorem follows_advance :
    Follows R (advance : Parser i _) := by
  unfold advance
  refine follows_of_get fun s => ?_
  have hSet :
      R s { s with leadComment := none, lineComment := none } :=
    IsPath.trans (IsCollecting.lead s none)
      (IsGathering.same ⟨rfl, rfl⟩)
  refine FollowsFrom.bind (followsFrom_set hSet) fun _ => ?_
  refine Follows.step fun _ => Follows.step fun isComment => ?_
  split
  · refine Follows.step fun s => ?_
    extract_lets next
    have hNext : ∀ u, Follows R (next u) := by
      intro _
      refine Follows.step fun fuel => Follows.step fun last => ?_
      cases last <;> infer_instance
    split
    · refine Follows.step fun r => Follows.step fun s => ?_
      extract_lets ends
      split
      · exact Follows.step hNext
      · exact hNext ()
    · exact hNext ()
  · infer_instance

instance :
    IsTrail R where
  advance := follows_advance.follows

------------------------------------------------------------
-- Comments Stay
------------------------------------------------------------

/- The groups that were collected before are still there. -/
def KeepsComments
    (s t : State i) : Prop :=
  s.comments <:+ t.comments

theorem keepsComments_of_eq
    {s t : State i}
    (h : t.comments = s.comments) :
    KeepsComments s t := by
  simp [KeepsComments, h]

instance :
    IsCollecting (KeepsComments (i := i)) where
  trans hFirst hNext := hFirst.trans hNext
  quiet h := keepsComments_of_eq h.comments
  same h := keepsComments_of_eq h.comments
  push s g := List.suffix_cons g.comments s.comments
  lead _ _ := keepsComments_of_eq rfl

/- Nothing that is parsed loses a comment. -/
theorem mem_flatten_of_keepsComments
    {s t : State i}
    {c : Comment}
    (h : KeepsComments s t)
    (hMem : c ∈ s.comments.flatten) :
    c ∈ t.comments.flatten := by
  rcases h with ⟨later, hComments⟩
  rw [← hComments, List.flatten_append]
  exact List.mem_append_right _ hMem

------------------------------------------------------------
-- The First Comment
------------------------------------------------------------

/- The comment of a token. -/
def commentOf
    (t : Token) : Comment :=
  ⟨t.offset, t.text⟩

/- A group starts with the comment at which it is collected. -/
theorem mem_comments_of_collectGroup
    {gap fuel : Nat}
    {s t : State i}
    {r : i.Group × Nat}
    (hKind : s.token.kind = .comment)
    (h :
      collectGroup gap (fuel + 1)
        (i.lines.lineOf s.token.offset) s = .ok r t) :
    commentOf s.token ∈ r.1.comments := by
  have hHere :
      s.token.kind = .comment ∧
        i.lines.lineOf s.token.offset ≤
          i.lines.lineOf s.token.offset + gap :=
    ⟨hKind, Nat.le_add_right _ _⟩
  unfold collectGroup at h
  rcases exists_of_bind h with ⟨s', s₁, hGet, h⟩
  cases hGet
  simp only [dif_pos hHere] at h
  rcases exists_of_bind h with ⟨_, s₂, _, h⟩
  rcases exists_of_bind h with ⟨later, s₃, _, h⟩
  cases h
  exact List.mem_cons_self

theorem mem_comments_of_group
    {gap : Nat}
    {s t : State i}
    {r : i.Group × Nat}
    (hKind : s.token.kind = .comment)
    (h : group gap s = .ok r t) :
    commentOf s.token ∈ t.comments.flatten := by
  unfold group at h
  rcases exists_of_bind h with ⟨s', s₁, hGet, h⟩
  cases hGet
  rcases exists_of_bind h with ⟨fuel, s₁, hBudget, h⟩
  cases hBudget
  rcases exists_of_bind h with ⟨r', s₂, hCollect, h⟩
  have hMem := mem_comments_of_collectGroup hKind hCollect
  rcases exists_of_bind h with ⟨_, s₃, hPush, h⟩
  cases hPush
  cases h
  exact List.mem_flatten.mpr ⟨_, List.mem_cons_self, hMem⟩

theorem mem_comments_of_groups
    {fuel : Nat}
    {s t : State i}
    {last r : Option (i.Group × Nat)}
    (hKind : s.token.kind = .comment)
    (h : groups (fuel + 1) last s = .ok r t) :
    commentOf s.token ∈ t.comments.flatten := by
  unfold groups at h
  rcases exists_of_bind h with ⟨isComment, s₁, hAt, h⟩
  cases hAt
  rw [if_pos (by simp [hKind])] at h
  rcases exists_of_bind h with ⟨g, s₂, hGroup, h⟩
  exact mem_flatten_of_keepsComments (Follows.follows h)
    (mem_comments_of_group hKind hGroup)

/- The next token is taken. -/
theorem follows_shift :
    Follows
      (fun s s' : State i =>
        ∀ t ts, s.rest = t :: ts →
          s'.token = t.token ∧ s'.started = s.started)
      shift := by
  unfold shift
  refine follows_of_get fun s => ?_
  split
  · rename_i hNil
    intro _ s' _ t ts hCons
    rw [hNil] at hCons
    cases hCons
  · rename_i t ts hRest
    refine followsFrom_set ?_
    intro t' ts' hCons
    cases hRest.symm.trans hCons
    exact ⟨rfl, rfl⟩

/- A comment at the beginning of a text is taken at once. -/
theorem mem_comments_of_advance
    {t : Scanner.Lexed}
    {ts : List Scanner.Lexed}
    {s : State i}
    (hTokens : i.tokens = t :: ts)
    (hKind : t.token.kind = .comment)
    (h : advance (State.start i) = .ok () s) :
    commentOf t.token ∈ s.comments.flatten := by
  unfold advance at h
  rcases exists_of_bind h with ⟨s', s₁, hGet, h⟩
  cases hGet
  rcases exists_of_bind h with ⟨_, s₁, hSet, h⟩
  cases hSet
  rcases exists_of_bind h with ⟨_, s₁, hShift, h⟩
  rcases follows_shift.follows hShift t ts hTokens with
    ⟨hToken, hStarted⟩
  rw [← hToken] at hKind ⊢
  rcases exists_of_bind h with ⟨isComment, s₂, hAt, h⟩
  cases hAt
  rw [if_pos (by simp [hKind])] at h
  rcases exists_of_bind h with ⟨s', s₂, hGet, h⟩
  cases hGet
  simp only [hStarted, State.start, Bool.false_and] at h
  rcases exists_of_bind h with ⟨fuel, s₂, hBudget, h⟩
  cases hBudget
  rcases exists_of_bind h with ⟨last, s₂, hGroups, h⟩
  have hMem := mem_comments_of_groups hKind hGroups
  refine mem_flatten_of_keepsComments ?_ hMem
  cases last <;> exact Follows.follows h

/- The tree takes over what was collected in the end. -/
theorem comments_of_file
    {s t : State i}
    {tree : Tree}
    (h : file s = .ok (some tree) t) :
    tree.comments = t.comments.reverse := by
  unfold file at h
  rcases exists_of_bind h with ⟨_, s₁, _, h⟩
  rcases exists_of_bind h with ⟨_, _, _, h⟩
  split at h
  · rcases exists_of_bind h with ⟨doc, _, _, h⟩
    rcases exists_of_bind h with ⟨package, _, _, h⟩
    rcases exists_of_bind h with ⟨name, _, _, h⟩
    rcases exists_of_bind h with ⟨_, _, _, h⟩
    rcases exists_of_bind h with ⟨_, _, _, h⟩
    split at h
    · rcases exists_of_bind h with ⟨depth, _, _, h⟩
      rcases exists_of_bind h with ⟨fuel, _, _, h⟩
      rcases exists_of_bind h with ⟨decls, _, _, h⟩
      rcases exists_of_bind h with ⟨s', _, hGet, h⟩
      cases hGet
      cases h
      rfl
    · cases h
  · cases h

set_option synthInstance.maxSize 4000 in
theorem mem_comments_of_file
    {t : Scanner.Lexed}
    {ts : List Scanner.Lexed}
    {s : State i}
    {tree : Tree}
    (hTokens : i.tokens = t :: ts)
    (hKind : t.token.kind = .comment)
    (h : file (State.start i) = .ok (some tree) s) :
    commentOf t.token ∈ tree.comments.flatten := by
  have hTree := comments_of_file h
  unfold file at h
  rcases exists_of_bind h with ⟨_, s₁, hAdvance, h⟩
  have hMem := mem_comments_of_advance hTokens hKind hAdvance
  have hKept : KeepsComments s₁ s := Follows.follows h
  rw [hTree]
  simpa using mem_flatten_of_keepsComments hKept hMem

------------------------------------------------------------
-- Comments of the Text
------------------------------------------------------------

/- If only comments of the text were collected, only such are. -/
def CollectsHeld
    (s t : State i) : Prop :=
  (∀ c ∈ s.comments.flatten, i.Holds c) →
    ∀ c ∈ t.comments.flatten, i.Holds c

theorem collectsHeld_of_eq
    {s t : State i}
    (h : t.comments = s.comments) :
    CollectsHeld s t := by
  intro hHeld
  rw [h]
  exact hHeld

instance :
    IsCollecting (CollectsHeld (i := i)) where
  trans hFirst hNext := hNext ∘ hFirst
  quiet h := collectsHeld_of_eq h.comments
  same h := collectsHeld_of_eq h.comments
  lead _ _ := collectsHeld_of_eq rfl
  push s g := by
    intro hHeld c hMem
    rw [List.flatten_cons, List.mem_append] at hMem
    rcases hMem with hNew | hOld
    · rcases List.mem_map.mp hNew with ⟨c', _, rfl⟩
      exact c'.property
    · exact hHeld c hOld

/- The comments of a tree are comments of its text. -/
theorem holds_of_mem_file
    {s : State i}
    {tree : Tree}
    {c : Comment}
    (h : file (State.start i) = .ok (some tree) s)
    (hMem : c ∈ tree.comments.flatten) :
    i.Holds c := by
  have hHeld : CollectsHeld (State.start i) s := Follows.follows h
  apply hHeld
  · intro c' hNone
    simp [State.start] at hNone
  · rw [comments_of_file h] at hMem
    simpa using hMem

end Parser

/- A comment at the beginning of a text belongs to its tree. -/
theorem mem_comments_of_readTokens
    {src : Bytes}
    {t : Scanner.Lexed}
    {ts : List Scanner.Lexed}
    {tree : Tree}
    (hKind : t.token.kind = .comment)
    (hRead : (readTokens src (t :: ts)).1 = some tree) :
    Parser.commentOf t.token ∈ tree.comments.flatten := by
  unfold readTokens at hRead
  simp only at hRead
  split at hRead
  · rename_i result s hRun
    cases (show result = some tree from hRead)
    exact Parser.mem_comments_of_file rfl hKind hRun
  · cases hRead

/- And each of them is a comment token of the text. -/
theorem exists_token_of_mem_comments
    {src : Bytes}
    {tokens : List Scanner.Lexed}
    {tree : Tree}
    {c : Comment}
    (hRead : (readTokens src tokens).1 = some tree)
    (hMem : c ∈ tree.comments.flatten) :
    ∃ t ∈ tokens, t.token = ⟨.comment, c.pos, c.text⟩ := by
  unfold readTokens at hRead
  simp only at hRead
  split at hRead
  · rename_i result s hRun
    cases (show result = some tree from hRead)
    exact Parser.holds_of_mem_file hRun hMem
  · cases hRead

end Source

end Namesake
