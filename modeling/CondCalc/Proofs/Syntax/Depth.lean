import CondCalc.Proofs.Syntax.Blame

/-! Refusals of the nesting. The count that a call is given is the number of productions open where
it begins, and a tree is refused at the token that makes its root; so the refused token crosses one
of the two limits, and by one. Nothing that was closed before it is counted any more. -/
namespace CondCalc

/-- A production that counts as nesting: it is open from its first token to its last one. -/
inductive Opening where
  | bang
  | paren
deriving DecidableEq

namespace Opening

def closeBangs : List Opening → List Opening
  | .bang :: os => closeBangs os
  | os => os

/-- The productions open behind a token, the innermost first, if `os` are open in front of it. -/
def openAfter (os : List Opening) (t : Token) : List Opening :=
  match t.kind with
  | .bang => .bang :: os
  | .leftParen => .paren :: os
  | .rightParen => closeBangs os.tail
  | .number _ => closeBangs os
  | .binary _ | .ifWord | .thenWord | .elseWord => os

def stillOpen (os : List Opening) (ts : List Token) : List Opening :=
  ts.foldl openAfter os

@[simp] theorem closeBangs_closeBangs (os : List Opening) :
    closeBangs (closeBangs os) = closeBangs os := by
  induction os with
  | nil => rfl
  | cons o os ih =>
    cases o with
    | bang => exact ih
    | paren => rfl

@[simp] theorem stillOpen_nil (os : List Opening) : stillOpen os [] = os := rfl

@[simp] theorem stillOpen_cons (os : List Opening) (t : Token) (ts : List Token) :
    stillOpen os (t :: ts) = stillOpen (openAfter os t) ts := rfl

@[simp] theorem stillOpen_append (os : List Opening) (ts us : List Token) :
    stillOpen os (ts ++ us) = stillOpen (stillOpen os ts) us :=
  List.foldl_append

end Opening

open Opening

theorem Derives.stillOpen_eq {budget : Nat} {phrase : Phrase} {ts : List Token} {e : Expr}
    (h : Derives budget phrase ts e) (os : List Opening) : stillOpen os ts = closeBangs os := by
  induction h generalizing os with
  | number => rfl
  | not literal offset _ ih => exact ih (.bang :: os)
  | paren l₁ l₂ o₁ o₂ _ ih =>
    rw [stillOpen_cons, stillOpen_append, ih]
    rfl
  | tighter _ ih => exact ih os
  | binary op literal offset _ _ _ ihl ihr =>
    rw [stillOpen_append, stillOpen_cons, ihl, ihr]
    exact closeBangs_closeBangs os
  | plain _ ih => exact ih os
  | cond l₁ l₂ l₃ o₁ o₂ o₃ _ _ _ ihc iht ihe =>
    simp only [stillOpen_cons, stillOpen_append, openAfter, ihc, iht, ihe, closeBangs_closeBangs]

/-- The tree is derived from the tokens `ls ++ t :: rs`, and `t` makes its root. -/
inductive Roots : Nat → Phrase → List Token → Token → List Token → Expr → Prop where
  | not {budget : Nat} {rs : List Token} {e : Expr} (literal : String) (offset : Nat) :
      Derives budget .factor rs e →
      Roots (budget + 1) .factor [] ⟨.bang, literal, offset⟩ rs (.not literal e)
  | binary {budget : Nat} {ls rs : List Token} {lhs rhs : Expr} (op : Operator)
      (literal : String) (offset : Nat) :
      Derives budget (.level op.level) ls lhs → Derives budget (.level (op.level + 1)) rs rhs →
      Roots budget (.level op.level) ls ⟨.binary op, literal, offset⟩ rs
        (.binary op literal lhs rhs)
  | cond {budget : Nat} {cs ts es : List Token} {c t e : Expr} (l₁ l₂ l₃ : String)
      (o₁ o₂ o₃ : Nat) :
      Derives budget (.level 0) cs c → Derives budget (.level 0) ts t →
      Derives budget (.level 0) es e →
      Roots budget .conditional [] ⟨.ifWord, l₁, o₁⟩
        (cs ++ ⟨.thenWord, l₂, o₂⟩ :: (ts ++ ⟨.elseWord, l₃, o₃⟩ :: es)) (.cond c t e)

theorem Roots.derives {budget : Nat} {phrase : Phrase} {ls rs : List Token} {t : Token} {e : Expr}
    (h : Roots budget phrase ls t rs e) : Derives budget phrase (ls ++ t :: rs) e := by
  cases h with
  | not literal offset d => exact .not literal offset d
  | binary op literal offset dl dr => exact .binary op literal offset rfl dl dr
  | cond l₁ l₂ l₃ o₁ o₂ o₃ dc dt de => exact .cond l₁ l₂ l₃ o₁ o₂ o₃ dc dt de

theorem Roots.kind {budget : Nat} {phrase : Phrase} {ls rs : List Token} {t : Token} {e : Expr}
    (h : Roots budget phrase ls t rs e) :
    t.kind = .bang ∨ t.kind = .ifWord ∨ ∃ op, t.kind = .binary op := by
  cases h with
  | not => exact .inl rfl
  | binary op => exact .inr (.inr ⟨op, rfl⟩)
  | cond => exact .inr (.inl rfl)

theorem Expr.height_eq_of_children {e : Expr} {n : Nat} (low : ∀ c ∈ e.children, c.height ≤ n)
    (tall : n < e.height) : e.height = n + 1 := by
  cases e <;> grind [children, height]

namespace Climb

/-- The token opens a production where as many are open as may be. -/
def Crowds (os : List Opening) (front : List Token) (t : Token) : Prop :=
  (t.kind = .bang ∨ t.kind = .leftParen) ∧ (stillOpen os front).length = depthLimit

/-- The token makes a tree, from tokens on either side of it, that is too high by one. -/
def Overtops (front : List Token) (t : Token) (rest : List Token) : Prop :=
  ∃ budget phrase ls rs e, ls <:+ front ∧ rs <+: rest ∧ Roots budget phrase ls t rs e ∧
    e.height = depthLimit + 1 ∧ ∀ c ∈ e.children, c.height ≤ depthLimit

theorem Overtops.of_roots {budget : Nat} {phrase : Phrase} {ls rs : List Token} {t : Token}
    {e : Expr} (h : Roots budget phrase ls t rs e) (low : ∀ c ∈ e.children, c.height ≤ depthLimit)
    (tall : depthLimit < e.height) (after : List Token) : Overtops ls t (rs ++ after) :=
  ⟨budget, phrase, ls, rs, e, List.suffix_refl ls, List.prefix_append rs after, h,
    Expr.height_eq_of_children low tall, low⟩

def Blames (os : List Opening) (ts : List Token) (u : Unexpected) : Prop :=
  ∃ front t rest, ts = front ++ t :: rest ∧ u.remaining = t :: rest ∧
    (Crowds os front t ∨ Overtops front t rest)

theorem Blames.prepend {os os' : List Opening} {ts : List Token} {u : Unexpected}
    (h : Blames os' ts u) (xs : List Token) (eq : stillOpen os xs = os') :
    Blames os (xs ++ ts) u := by
  obtain ⟨front, t, rest, rfl, hr, crossed⟩ := h
  refine ⟨xs ++ front, t, rest, by simp, hr, ?_⟩
  rcases crossed with ⟨kind, length⟩ | ⟨budget, phrase, ls, rs, e, left, right, roots⟩
  · exact .inl ⟨kind, by rw [stillOpen_append, eq, length]⟩
  · exact .inr ⟨budget, phrase, ls, rs, e, left.trans (List.suffix_append xs front), right, roots⟩

/-- A call at this nesting may begin where these productions are open. -/
structure Opened (nesting : Nat) (os : List Opening) : Prop where
  length_eq : os.length = nesting
  length_le : nesting ≤ depthLimit

theorem Opened.cons {nesting : Nat} {os : List Opening} (h : Opened nesting os)
    (lt : nesting < depthLimit) (o : Opening) : Opened (nesting + 1) (o :: os) :=
  ⟨congrArg (· + 1) h.length_eq, lt⟩

theorem Opened.crowds {nesting : Nat} {os : List Opening} {t : Token} (h : Opened nesting os)
    (deep : ¬nesting < depthLimit) (kind : t.kind = .bang ∨ t.kind = .leftParen) :
    Crowds os [] t :=
  ⟨kind, h.length_eq.trans (Nat.le_antisymm h.length_le (Nat.not_lt.1 deep))⟩

def Blaming (os : List Opening) (before : List Token)
    (parse : List Token → Except Unexpected Parsed) (ts : List Token) : Prop :=
  ∀ u, parse ts = .error u → u.expected = .shallowerNesting → Blames os (before ++ ts) u

theorem Reads.stillOpen_eq {phrase : Phrase} {nesting height : Nat} {front : List Token} {e : Expr}
    (h : Reads phrase nesting front e height) {os : List Opening} (settled : closeBangs os = os) :
    stillOpen os front = os :=
  (h.derives.stillOpen_eq os).trans settled

section cases

variable {nesting least height : Nat} {lhs : Expr} {op : Operator} {os : List Opening}
  {ts : List Token} (l₁ : String) (o₁ : Nat)

theorem blaming_conditional_if (settled : closeBangs os = os)
    (blaming : ∀ ts, Blaming os [] (within nesting 0) ts) :
    Blaming os [] (conditional nesting) (⟨.ifWord, l₁, o₁⟩ :: ts) := by
  intro u h deep
  rcases conditional_if_eq_error_iff.1 h with hc | ⟨c, hc, hw | ⟨l₂, o₂, ts₂, eq₂, hb |
    ⟨b, hb, hw | ⟨l₃, o₃, ts₃, eq₃, he | ⟨e, he, tall, rfl⟩⟩⟩⟩⟩
  · exact (blaming ts u hc deep).prepend [⟨.ifWord, l₁, o₁⟩] rfl
  · obtain ⟨-, rfl⟩ := expect_eq_error_iff.1 hw
    cases deep
  · obtain ⟨cs, rfl, rc, -⟩ := within_takes (Nat.zero_le 6) hc
    have part : Blames os _ u := (blaming ts₂ u hb deep).prepend
      (⟨.ifWord, l₁, o₁⟩ :: (cs ++ [⟨.thenWord, l₂, o₂⟩]))
      (by simp [openAfter, rc.stillOpen_eq settled])
    simpa [eq₂] using part
  · obtain ⟨-, rfl⟩ := expect_eq_error_iff.1 hw
    cases deep
  · obtain ⟨cs, rfl, rc, -⟩ := within_takes (Nat.zero_le 6) hc
    obtain ⟨bs, rfl, rb, -⟩ := within_takes (Nat.zero_le 6) hb
    have part : Blames os _ u := (blaming ts₃ u he deep).prepend
      (⟨.ifWord, l₁, o₁⟩ :: (cs ++ ⟨.thenWord, l₂, o₂⟩ :: (bs ++ [⟨.elseWord, l₃, o₃⟩])))
      (by simp [openAfter, rc.stillOpen_eq settled, rb.stillOpen_eq settled])
    simpa [eq₂, eq₃] using part
  · obtain ⟨cs, rfl, rc, -⟩ := within_takes (Nat.zero_le 6) hc
    obtain ⟨bs, rfl, rb, -⟩ := within_takes (Nat.zero_le 6) hb
    obtain ⟨es, eq, re, -⟩ := within_takes (Nat.zero_le 6) he
    refine ⟨[], _, _, rfl, rfl, .inr ?_⟩
    have roots := Roots.cond l₁ l₂ l₃ o₁ o₂ o₃ rc.derives rb.derives re.derives
    rw [rc.height_eq, rb.height_eq, re.height_eq] at tall
    have low : ∀ x ∈ (Expr.cond c.expr b.expr e.expr).children, x.height ≤ depthLimit := by
      simp [Expr.children, rc.fits.2, rb.fits.2, re.fits.2]
    have high : depthLimit < (Expr.cond c.expr b.expr e.expr).height := by
      rw [Expr.height]
      omega
    simpa [eq₂, eq₃, eq] using Overtops.of_roots roots low high e.rest

theorem blaming_chain_binary {front : List Token} {l : Nat} (least_le : least ≤ op.level)
    (op_le : op.level ≤ l) (r : Reads (.level l) nesting front lhs height)
    (settled : closeBangs os = os)
    (blaming : Blaming os [] (within nesting (op.level + 1)) ts)
    (chains : ∀ (rhs : Parsed) (rs : List Token), max height rhs.height < depthLimit →
      Stops (op.level + 1) rhs.rest →
      Reads (.level op.level) nesting (front ++ ⟨.binary op, l₁, o₁⟩ :: rs)
        (.binary op l₁ lhs rhs.expr) (max height rhs.height + 1) →
      Blaming os (front ++ ⟨.binary op, l₁, o₁⟩ :: rs)
        (chain nesting least (.binary op l₁ lhs rhs.expr) (max height rhs.height + 1)) rhs.rest) :
    Blaming os front (chain nesting least lhs height) (⟨.binary op, l₁, o₁⟩ :: ts) := by
  intro u h deep
  rcases (chain_binary_eq_error_iff least_le).1 h with hw | ⟨rhs, hr, too⟩
  · have part : Blames os _ u := (blaming u hw deep).prepend (front ++ [⟨.binary op, l₁, o₁⟩])
      (by simp [openAfter, r.stillOpen_eq settled])
    simpa using part
  obtain ⟨rs, rfl, right, stops⟩ := within_takes op.level_lt_six hr
  rcases too with ⟨tall, rfl⟩ | ⟨lt, hc⟩
  · have roots := Roots.binary op l₁ o₁ (r.derives.loosen op_le) right.derives
    rw [r.height_eq, right.height_eq] at tall
    refine ⟨front, _, _, rfl, rfl, .inr (.of_roots roots ?_ ?_ rhs.rest)⟩
    · simp [Expr.children, r.fits.2, right.fits.2]
    · rw [Expr.height]
      omega
  · have part := chains rhs rs lt stops (r.binary l₁ o₁ right op_le lt) u hc deep
    simpa using part

theorem blaming_factor_bang (opened : Opened nesting os)
    (blaming : nesting < depthLimit → Blaming (.bang :: os) [] (factor (nesting + 1)) ts) :
    Blaming os [] (factor nesting) (⟨.bang, l₁, o₁⟩ :: ts) := by
  intro u h deep
  rcases factor_bang_eq_error_iff.1 h with ⟨full, rfl⟩ | ⟨lt, hx | ⟨x, hx, tall, rfl⟩⟩
  · exact ⟨[], _, ts, rfl, rfl, .inl (opened.crowds full (.inl rfl))⟩
  · exact (blaming lt u hx deep).prepend [⟨.bang, l₁, o₁⟩] rfl
  · obtain ⟨rs, rfl, r, -⟩ := factor_takes hx
    rw [r.height_eq] at tall
    refine ⟨[], _, _, rfl, rfl, .inr (.of_roots (.not l₁ o₁ r.derives) ?_ ?_ x.rest)⟩
    · simp [Expr.children, r.fits.2]
    · rw [Expr.height]
      omega

theorem blaming_factor_paren (opened : Opened nesting os)
    (blaming : nesting < depthLimit → Blaming (.paren :: os) [] (conditional (nesting + 1)) ts) :
    Blaming os [] (factor nesting) (⟨.leftParen, l₁, o₁⟩ :: ts) := by
  intro u h deep
  rcases factor_paren_eq_error_iff.1 h with ⟨full, rfl⟩ | ⟨lt, hx | ⟨x, -, hw⟩⟩
  · exact ⟨[], _, ts, rfl, rfl, .inl (opened.crowds full (.inr rfl))⟩
  · exact (blaming lt u hx deep).prepend [⟨.leftParen, l₁, o₁⟩] rfl
  · obtain ⟨-, rfl⟩ := expect_eq_error_iff.1 hw
    cases deep

end cases

/-- One case for each branch, as for `takes_of_ok`. Only a factor may begin behind a `!` that waits
for it; where any other call begins, no `!` is the innermost open production. -/
theorem blaming :
    (∀ nesting ts, ∀ os, Opened nesting os → closeBangs os = os →
      Blaming os [] (conditional nesting) ts) ∧
    (∀ nesting least ts, least ≤ 6 → ∀ os, Opened nesting os → closeBangs os = os →
      Blaming os [] (within nesting least) ts) ∧
    (∀ nesting least lhs height ts, ∀ front l os, least ≤ l → Stops (l + 1) ts →
      Reads (.level l) nesting front lhs height → Opened nesting os → closeBangs os = os →
      Blaming os front (chain nesting least lhs height) ts) ∧
    (∀ nesting ts, ∀ os, Opened nesting os → Blaming os [] (factor nesting) ts) := by
  refine conditional.mutual_induct _ _ _ _ ?bare ?plain ?within ?operator ?looser ?other
    ?number ?bang ?bangDeep ?paren ?parenDeep ?neither
  case bare =>
    intro nesting l₁ o₁ ts _ ih os opened settled
    exact blaming_conditional_if l₁ o₁ settled fun ts' => ih ts' (by omega) os opened settled
  case plain =>
    intro nesting ts noIf ih os opened settled u h
    rw [conditional_eq_within noIf] at h
    exact ih (by omega) os opened settled u h
  case within =>
    intro nesting least ts ihf ihc le os opened settled u h deep
    rcases within_eq_error_iff.1 h with hf | ⟨x, hx, hc⟩
    · exact ihf os opened u hf deep
    · obtain ⟨front, rfl, r, stops⟩ := factor_takes hx
      exact ihc x front 6 os le (stops.mono (Nat.le_succ 6)) r opened settled u hc deep
  case operator =>
    intro nesting least lhs height op l₁ o₁ ts le ihw ihc front l os _ stops r opened settled
    refine blaming_chain_binary l₁ o₁ le (Nat.le_of_lt_succ (stops_binary.1 stops)) r settled
      (ihw op.level_lt_six os opened settled) ?_
    intro rhs rs lt stops' r'
    exact ihc rhs lt _ op.level os le stops' r' opened settled
  case looser =>
    intro nesting least lhs height op l₁ o₁ ts lt front l os _ _ _ _ _ u h
    rw [chain_of_stops (stops_binary.2 (Nat.not_le.1 lt))] at h
    cases h
  case other =>
    intro nesting least lhs height ts noOperator front l os _ _ _ _ _ u h
    rw [chain_of_stops fun op l o rest eq => (noOperator op l o rest eq).elim] at h
    cases h
  case number =>
    intro nesting n literal offset ts os _ u h
    rw [factor] at h
    cases h
  case bang =>
    intro nesting l₁ o₁ ts _ ih os opened
    exact blaming_factor_bang l₁ o₁ opened fun lt => ih _ (opened.cons lt .bang)
  case bangDeep =>
    intro nesting l₁ o₁ ts full os opened
    exact blaming_factor_bang l₁ o₁ opened fun lt => absurd lt full
  case paren =>
    intro nesting l₁ o₁ ts _ ih os opened
    exact blaming_factor_paren l₁ o₁ opened fun lt => ih _ (opened.cons lt .paren) rfl
  case parenDeep =>
    intro nesting l₁ o₁ ts full os opened
    exact blaming_factor_paren l₁ o₁ opened fun lt => absurd lt full
  case neither =>
    intro nesting ts notNumber notBang notParen os _ u h deep
    rw [factor_eq_error_of_ne notNumber notBang notParen] at h
    cases h
    cases deep

theorem whole_blames {ts : List Token} {u : Unexpected} (h : whole ts = .error u)
    (deep : u.expected = .shallowerNesting) : Blames [] ts u := by
  rcases whole_eq_error_iff.1 h with hc | ⟨x, -, -, rfl⟩
  · exact blaming.1 0 ts [] ⟨rfl, Nat.zero_le _⟩ rfl u hc deep
  · cases deep

end Climb

/-- A refusal of the nesting stands at a `!` or `(` in front of which 256 of them are open, or at a
token that makes, of tokens on either side of it, a tree one higher than a tree may be. -/
theorem depth_error_blames (ts : List Token) (x : SyntaxError)
    (h : Expr.ofTokens ts = .error x) (deep : x.expected = .shallowerNesting) :
    ∃ i t, Climb.whole ts = .error ⟨.shallowerNesting, ts.drop i⟩ ∧ ts[i]? = some t ∧
      x.found = some t ∧ x.span = t.span ∧
      ((t.kind = .bang ∨ t.kind = .leftParen) ∧ (stillOpen [] (ts.take i)).length = 256 ∨
        (t.kind = .bang ∨ t.kind = .ifWord ∨ ∃ op, t.kind = .binary op) ∧
        ∃ budget phrase ls rs e, ls <:+ ts.take i ∧ rs <+: ts.drop (i + 1) ∧
          Derives budget phrase (ls ++ t :: rs) e ∧ Roots budget phrase ls t rs e ∧
          e.height = 257 ∧ ∀ c ∈ e.children, c.height ≤ 256) := by
  obtain ⟨⟨expected, remaining⟩, hu, rfl⟩ := Expr.ofTokens_eq_error.1 h
  rw [Unexpected.locate_expected] at deep
  cases deep
  obtain ⟨front, t, rest, rfl, rfl, crossed⟩ := Climb.whole_blames hu rfl
  have rest_eq : (front ++ t :: rest).drop (front.length + 1) = rest := by
    simp [← List.drop_drop]
  refine ⟨front.length, t, by rwa [List.drop_left], by simp, rfl, rfl, ?_⟩
  rw [List.take_left, rest_eq]
  rcases crossed with crowds | ⟨budget, phrase, ls, rs, e, left, right, roots, height, low⟩
  · exact .inl crowds
  · exact .inr ⟨roots.kind, budget, phrase, ls, rs, e, left, right, roots.derives, roots, height,
      low⟩

theorem depth_error_blames_bangs :
    let bang : Token := ⟨.bang, "!", 0⟩
    let ts : List Token := List.replicate 256 bang ++ [bang]
    let x : SyntaxError := ⟨.shallowerNesting, some bang, ⟨0, 1⟩⟩
    (Expr.ofTokens ts = .error x ∧ x.expected = .shallowerNesting) ∧
    ∃ i t, Climb.whole ts = .error ⟨.shallowerNesting, ts.drop i⟩ ∧ ts[i]? = some t ∧
      x.found = some t ∧ x.span = t.span ∧
      ((t.kind = .bang ∨ t.kind = .leftParen) ∧ (stillOpen [] (ts.take i)).length = 256 ∨
        (t.kind = .bang ∨ t.kind = .ifWord ∨ ∃ op, t.kind = .binary op) ∧
        ∃ budget phrase ls rs e, ls <:+ ts.take i ∧ rs <+: ts.drop (i + 1) ∧
          Derives budget phrase (ls ++ t :: rs) e ∧ Roots budget phrase ls t rs e ∧
          e.height = 257 ∧ ∀ c ∈ e.children, c.height ≤ 256) := by
  intro bang ts x
  have h : Expr.ofTokens ts = .error x :=
    Expr.ofTokens_eq_error.2 ⟨_, Climb.whole_bangs "!" 0 [], rfl⟩
  exact ⟨⟨h, rfl⟩, depth_error_blames ts x h rfl⟩

end CondCalc
