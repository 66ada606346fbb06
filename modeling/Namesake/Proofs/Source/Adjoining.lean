import Namesake.Proofs.Source.Decorations
import Namesake.Proofs.Source.Docs
import Namesake.Proofs.Source.Lines

/-
  The comments of a doc comment are on adjoining lines.  What
  leads a token is the last group of comments before it, and
  in a group whatever follows a line comment, the token at the
  end included, is on the next line.

  Main declarations:
    * `Source.Gap.Adjoins`
    * `Source.Parser.Leads`
    * `Source.Parser.leads_of_advance`
    * `Source.adjoins_of_mem_decls`
-/

namespace Namesake

namespace Source

------------------------------------------------------------
-- Adjoining Comments
------------------------------------------------------------

/-
  Behind each line comment at most one line ends before what
  follows it.
-/
def Gap.Adjoins
    (lines : Lines)
    (next : Nat) : List Comment → Prop
  | [] => True
  | c :: cs =>
      (c.isBlock = false →
        distance lines c.stop (follower next cs) ≤ 1) ∧
      Adjoins lines next cs

/- Only the lines of the comments matter. -/
theorem Gap.Adjoins.congr
    {lines other : Lines}
    {next : Nat}
    {cs : List Comment}
    (h : Adjoins lines next cs)
    (hSame : ∀ offset, lines.lineOf offset = other.lineOf offset) :
    Adjoins other next cs := by
  induction cs with
  | nil => trivial
  | cons c cs ih =>
      refine ⟨fun hLine => ?_, ih h.2⟩
      have hNear := h.1 hLine
      rw [distance, hSame, hSame] at hNear
      exact hNear

namespace Parser

variable {i : Input}

------------------------------------------------------------
-- Groups
------------------------------------------------------------

/-
  A group that is collected from a line on, with the line on
  which it ends: what follows on that line or the next one
  adjoins it, and so do its comments.
-/
def IsGroupFrom
    (i : Input)
    (endLine : Nat)
    (r : i.Group × Nat) : Prop :=
  ∀ next,
    i.lines.lineOf next ≤ r.2 + 1 →
      Gap.Adjoins i.lines next r.1.comments ∧
        i.lines.lineOf (Gap.follower next r.1.comments) ≤
          endLine + 1

/-
  Each further comment starts at most a line behind the one
  before, since else the group ends.
-/
theorem returns_collectGroup
    (fuel endLine : Nat) :
    Returns (IsGroupFrom i endLine)
      (collectGroup 1 fuel endLine : Parser i _) := by
  induction fuel generalizing endLine with
  | zero => exact Returns.pure fun next hNext => ⟨trivial, hNext⟩
  | succ fuel ih =>
      unfold collectGroup
      refine Returns.after fun s => ?_
      simp only
      split
      · rename_i hHere
        refine Returns.after fun _ => ?_
        refine Returns.bind (ih _) fun r hGroup => Returns.pure ?_
        intro next hNext
        rcases hGroup next hNext with ⟨hLater, hFollows⟩
        refine ⟨⟨?_, hLater⟩, hHere.2⟩
        intro hLine
        have hInner :
            innerLines (s.comment hHere.1).val.text = 0 :=
          if_neg (Bool.eq_false_iff.mp hLine)
        have hStop :=
          i.lines.lineOf_mono
            (Nat.le_add_right s.token.offset s.token.text.length)
        rw [hInner, Nat.add_zero] at hFollows
        rw [Gap.distance, Nat.sub_le_iff_le_add, Nat.add_comm 1]
        exact Nat.le_trans hFollows (Nat.add_le_add_right hStop 1)
      · exact Returns.pure fun next hNext => ⟨trivial, hNext⟩

/- What follows the last group adjoins it. -/
def IsLast
    (i : Input)
    (last : Option (i.Group × Nat)) : Prop :=
  ∀ r ∈ last, ∀ next,
    i.lines.lineOf next ≤ r.2 + 1 →
      Gap.Adjoins i.lines next r.1.comments

theorem isLast_none : IsLast i none := by
  intro r hNone
  cases hNone

/- The first comment of a group may start anywhere. -/
theorem returns_group :
    Returns (fun r => IsLast i (some r)) (group 1 : Parser i _) := by
  refine Returns.after fun s => Returns.after fun fuel => ?_
  refine Returns.bind (returns_collectGroup _ _) fun r hGroup => ?_
  refine Returns.after fun _ => Returns.pure ?_
  intro r' hSame next hNext
  cases Option.mem_some_iff.mp hSame
  exact (hGroup next hNext).1

/- By induction on the fuel: the last group wins. -/
theorem returns_groups
    (fuel : Nat)
    {last : Option (i.Group × Nat)}
    (hLast : IsLast i last) :
    Returns (IsLast i) (groups fuel last : Parser i _) := by
  induction fuel generalizing last with
  | zero => exact Returns.pure hLast
  | succ fuel ih =>
      unfold groups
      refine Returns.after fun isComment => ?_
      split
      · exact Returns.bind returns_group fun r hGroup => ih hGroup
      · exact Returns.pure hLast

------------------------------------------------------------
-- Taking a Token
------------------------------------------------------------

/- The comments that lead the current token adjoin it. -/
def Leads
    (s : State i) : Prop :=
  ∀ g ∈ s.leadComment,
    Gap.Adjoins i.lines s.token.offset g.comments

/- Without leading comments there is nothing to adjoin. -/
theorem leads_of_none
    {s : State i}
    (h : s.leadComment = none) :
    Leads s := by
  intro g hSome
  rw [h] at hSome
  cases hSome

/- No comments lead the token as long as none did. -/
def StaysBare
    (s t : State i) : Prop :=
  s.leadComment = none → t.leadComment = none

instance :
    IsGathering (StaysBare (i := i)) where
  trans hFirst hNext := hNext ∘ hFirst
  quiet h := by
    intro hNone
    rw [h.leadComment, hNone]
  same h := by
    intro hNone
    rw [h.leadComment, hNone]
  push _ _ := id

/- From no leading comments the parser comes to adjoining ones. -/
def Adjusts
    (s t : State i) : Prop :=
  s.leadComment = none → Leads t

/- The first parser may gather nothing that leads. -/
theorem follows_adjusts
    {α β : Type}
    {p : Parser i α}
    {f : α → Parser i β}
    [Follows StaysBare p]
    (h : ∀ a, Follows Adjusts (f a)) :
    Follows Adjusts (p >>= f) where
  follows hRun hNone := by
    rcases exists_of_bind hRun with ⟨a, s₁, hFirst, hNext⟩
    have hStill : StaysBare _ s₁ := Follows.follows hFirst
    exact (h a).follows hNext (hStill hNone)

/- A parser that keeps comments from leading adjusts nothing. -/
theorem follows_adjusts_of_staysBare
    {α : Type}
    {p : Parser i α}
    [Follows StaysBare p] :
    Follows Adjusts p where
  follows {s a t} hRun hNone := by
    have hStill : StaysBare s t := Follows.follows hRun
    exact leads_of_none (hStill hNone)

/- The comments that lead a token that is taken adjoin it. -/
theorem leads_of_advance
    {s t : State i}
    (h : advance s = .ok () t) :
    Leads t := by
  unfold advance at h
  rcases exists_of_bind h with ⟨s', _, hGet, h⟩
  cases hGet
  rcases exists_of_bind h with ⟨_, s₁, hSet, h⟩
  cases hSet
  refine (follows_adjusts fun _ => ?_).follows h rfl
  refine follows_adjusts fun isComment => ?_
  split
  · refine follows_adjusts fun s => ?_
    extract_lets next
    have hNext : ∀ u, Follows Adjusts (next u) := by
      intro _
      refine follows_adjusts fun fuel => ⟨?_⟩
      intro s u t hRun hNone
      rcases exists_of_bind hRun with ⟨last, s₁, hGroups, hRest⟩
      have hStill : StaysBare s s₁ := Follows.follows hGroups
      have hLast :=
        returns_groups fuel isLast_none s last s₁ hGroups
      have hBare := leads_of_none (hStill hNone)
      cases last with
      | none =>
          cases hRest
          exact hBare
      | some r =>
          rcases exists_of_bind hRest with ⟨s', _, hGet, hRest⟩
          cases hGet
          split at hRest
          · rename_i hLine
            rcases exists_of_bind hRest with
              ⟨_, _, hModify, hRest⟩
            cases hModify
            cases hRest
            intro g hSome
            cases Option.mem_some_iff.mp hSome
            exact hLast r rfl s₁.token.offset (Nat.le_of_eq hLine.symm)
          · cases hRest
            exact hBare
    split
    · refine follows_adjusts fun r => follows_adjusts fun s => ?_
      extract_lets ends
      split
      · exact follows_adjusts hNext
      · exact hNext ()
    · exact hNext ()
  · exact follows_adjusts_of_staysBare

/- Nothing that is parsed changes that. -/
def KeepsLeads
    (s t : State i) : Prop :=
  Leads s → Leads t

instance :
    IsTrail (KeepsLeads (i := i)) where
  trans hFirst hNext := hNext ∘ hFirst
  quiet h := by
    intro hLeads
    unfold Leads
    rw [h.leadComment, h.token]
    exact hLeads
  advance h _ := leads_of_advance h

------------------------------------------------------------
-- Declarations
------------------------------------------------------------

/- The doc comment of a declaration adjoins it. -/
def HasAdjoiningDoc
    (i : Input)
    (d : TopDecl) : Prop :=
  ∀ g ∈ d.doc, Gap.Adjoins i.lines d.pos g

/- The comments are read where the declaration starts. -/
theorem adjoins_of_leadDoc
    {s s₁ s₂ : State i}
    {doc : Option CommentGroup}
    {k : TokenKind}
    {p : Nat}
    (hLeads : Leads s)
    (hDoc : leadDoc s = .ok doc s₁)
    (hExpect : expect k s₁ = .ok p s₂) :
    ∀ g ∈ doc, Gap.Adjoins i.lines p g := by
  cases hDoc
  have hPlace : p = s.token.offset := by
    unfold expect at hExpect
    rcases exists_of_bind hExpect with ⟨p', _, hOffset, hExpect⟩
    cases hOffset
    refine (?_ : Returns (fun r => r = s.token.offset) _) _ _ _
      hExpect
    refine Returns.after fun found => ?_
    simp only
    split
    · exact Returns.after fun _ => Returns.pure rfl
    · refine Returns.after fun _ => ?_
      exact Returns.after fun _ => Returns.pure rfl
  intro g hSome
  rcases Option.map_eq_some_iff.mp hSome with ⟨g', hLead, rfl⟩
  rw [hPlace]
  exact hLeads g' hLead

/- The doc comment is what leads the keyword. -/
theorem hasAdjoiningDoc_of_genDecl
    {s t : State i}
    {g : Grammar i}
    {keyword : TokenKind}
    {d : GenDecl}
    (hLeads : Leads s)
    (h : genDecl g keyword s = .ok d t) :
    HasAdjoiningDoc i (.gen d) := by
  unfold genDecl at h
  rcases exists_of_bind h with ⟨doc, s₁, hDoc, h⟩
  rcases exists_of_bind h with ⟨p, s₂, hExpect, h⟩
  have hAdjoins := adjoins_of_leadDoc hLeads hDoc hExpect
  refine (?_ :
    Returns (fun d => HasAdjoiningDoc i (.gen d)) _) _ _ _ h
  refine Returns.after fun paren => ?_
  split
  · refine Returns.after fun lparen => ?_
    refine Returns.after fun _ => Returns.after fun specs => ?_
    refine Returns.after fun rparen => Returns.after fun _ => ?_
    exact Returns.pure hAdjoins
  · exact Returns.after fun s => Returns.pure hAdjoins

theorem hasAdjoiningDoc_of_funcDecl
    {s t : State i}
    {g : Grammar i}
    {d : FuncDecl}
    (hLeads : Leads s)
    (h : funcDecl g s = .ok d t) :
    HasAdjoiningDoc i (.func d) := by
  unfold funcDecl at h
  rcases exists_of_bind h with ⟨doc, s₁, hDoc, h⟩
  rcases exists_of_bind h with ⟨p, s₂, hExpect, h⟩
  have hAdjoins := adjoins_of_leadDoc hLeads hDoc hExpect
  refine (?_ :
    Returns (fun d => HasAdjoiningDoc i (.func d)) _) _ _ _ h
  -- every path ends with the keyword that was taken first
  repeat' first
    | exact Returns.pure hAdjoins
    | refine Returns.after fun _ => ?_
    | split

/- It is taken at the first token of each form. -/
theorem hasAdjoiningDoc_of_topDecl
    {s t : State i}
    {g : Grammar i}
    {d : TopDecl}
    (hLeads : Leads s)
    (h : topDecl g s = .ok d t) :
    HasAdjoiningDoc i d := by
  unfold topDecl at h
  rcases exists_of_bind h with ⟨k, s₁, hKind, hRun⟩
  have hSame : s₁ = s := by
    cases hKind
    rfl
  subst hSame
  have hGen
      {keyword : TokenKind}
      (h :
        (do return TopDecl.gen (← genDecl g keyword)) s₁ =
          .ok d t) :
      HasAdjoiningDoc i d := by
    rcases exists_of_bind h with ⟨d', _, hDecl, h⟩
    cases h
    exact hasAdjoiningDoc_of_genDecl hLeads hDecl
  split at hRun
  · exact hGen hRun
  · exact hGen hRun
  · exact hGen hRun
  · exact hGen hRun
  · rcases exists_of_bind hRun with ⟨d', _, hDecl, hRun⟩
    cases hRun
    exact hasAdjoiningDoc_of_funcDecl hLeads hDecl
  · rcases exists_of_bind hRun with ⟨p, _, _, hRun⟩
    rcases exists_of_bind hRun with ⟨_, _, _, hRun⟩
    rcases exists_of_bind hRun with ⟨_, _, _, hRun⟩
    rcases exists_of_bind hRun with ⟨stop, _, _, hRun⟩
    cases hRun
    intro g hNone
    cases hNone

/- By induction on the fuel, as the grammar keeps what leads. -/
theorem hasAdjoiningDoc_of_topDecls
    {s t : State i}
    {g : Grammar i}
    [Grammar.Follows (KeepsLeads (i := i)) g]
    {fuel : Nat}
    {last : TokenKind}
    {ds : List TopDecl}
    (hLeads : Leads s)
    (h : topDecls g fuel last s = .ok ds t) :
    ∀ d ∈ ds, HasAdjoiningDoc i d := by
  induction fuel generalizing s t last ds with
  | zero =>
      cases h
      exact List.forall_mem_nil _
  | succ fuel ih =>
      unfold topDecls at h
      rcases exists_of_bind h with ⟨k, s₁, hKind, hRun⟩
      have hSame : s₁ = s := by
        cases hKind
        rfl
      subst hSame
      have hRest
          {s₁ : State i}
          (hLeads : Leads s₁)
          (h :
            (do
              let d ← topDecl g
              return d :: (← topDecls g fuel k)) s₁ =
              .ok ds t) :
          ∀ d ∈ ds, HasAdjoiningDoc i d := by
        rcases exists_of_bind h with ⟨d, s₂, hDecl, h⟩
        have hKept : KeepsLeads s₁ s₂ := Follows.follows hDecl
        rcases exists_of_bind h with ⟨ds', s₃, hDecls, h⟩
        cases h
        exact List.forall_mem_cons.mpr
          ⟨hasAdjoiningDoc_of_topDecl hLeads hDecl,
            ih (hKept hLeads) hDecls⟩
      split at hRun
      · cases hRun
        exact List.forall_mem_nil _
      · simp only at hRun
        split at hRun
        · rcases exists_of_bind hRun with ⟨p, s₂, hOffset, hRun⟩
          rcases exists_of_bind hRun with
            ⟨_, s₃, hComplain, hRun⟩
          have hFirst : KeepsLeads s₁ s₂ := Follows.follows hOffset
          have hNext : KeepsLeads s₂ s₃ :=
            Follows.follows hComplain
          exact hRest (hNext (hFirst hLeads)) hRun
        · exact hRest hLeads hRun

/- What a tree says of its declarations and their comments. -/
theorem hasAdjoiningDoc_of_file
    {t : State i}
    {tree : Tree}
    (h : file (State.start i) = .ok (some tree) t) :
    ∀ d ∈ tree.decls, HasAdjoiningDoc i d := by
  unfold file at h
  rcases exists_of_bind h with ⟨_, s₁, hAdvance, h⟩
  have hLeads := leads_of_advance hAdvance
  rcases exists_of_bind h with ⟨s', _, hGet, h⟩
  cases hGet
  split at h
  · rcases exists_of_bind h with ⟨doc, s₂, hDoc, h⟩
    rcases exists_of_bind h with ⟨package, s₃, hPackage, h⟩
    rcases exists_of_bind h with ⟨name, s₄, hName, h⟩
    rcases exists_of_bind h with ⟨_, s₅, hSemi, h⟩
    have hDoc : KeepsLeads s₁ s₂ := Follows.follows hDoc
    have hPackage : KeepsLeads s₂ s₃ := Follows.follows hPackage
    have hName : KeepsLeads s₃ s₄ := Follows.follows hName
    have hSemi : KeepsLeads s₄ s₅ := Follows.follows hSemi
    have hClause := hSemi (hName (hPackage (hDoc hLeads)))
    rcases exists_of_bind h with ⟨s', _, hGet, h⟩
    cases hGet
    split at h
    · rcases exists_of_bind h with ⟨depth, _, hBudget, h⟩
      cases hBudget
      rcases exists_of_bind h with ⟨fuel, _, hBudget, h⟩
      cases hBudget
      rcases exists_of_bind h with ⟨decls, s₆, hDecls, h⟩
      rcases exists_of_bind h with ⟨s', _, hGet, h⟩
      cases hGet
      cases h
      exact hasAdjoiningDoc_of_topDecls hClause hDecls
    · cases h
  · cases h

end Parser

/- The doc comments of a text are on adjoining lines. -/
theorem adjoins_of_mem_decls
    {path src : Bytes}
    {tree : Tree}
    {d : TopDecl}
    {g : CommentGroup}
    (hTree : (parse path src).tree = some tree)
    (hDecl : d ∈ tree.decls)
    (hDoc : d.doc = some g) :
    Gap.Adjoins (parse path src).lines d.pos g := by
  have hRead : (readTokens src (Scanner.tokens src)).1 = some tree :=
    hTree
  unfold readTokens at hRead
  simp only at hRead
  split at hRead
  · rename_i result s hRun
    cases (show result = some tree from hRead)
    have hAdjoins :=
      Parser.hasAdjoiningDoc_of_file hRun d hDecl g hDoc
    exact hAdjoins.congr fun offset =>
      Lines.lineOf_ofText [] path src (Scanner.tokens src) offset
  · cases hRead

end Source

end Namesake
