import CondCalc.Proofs.Syntax.Blame
import Mathlib.Data.List.Forall2

/-! Tokens that are written otherwise or stand elsewhere. Of what its tokens look like a tree keeps
the literals of its operators, from left to right in the order of the tokens, and nothing else. So
lists with the same kinds are read alike, step by step: as trees that differ in these literals
only, or up to tokens at the same place that are refused for the same reason. -/
namespace CondCalc

/-- As many tokens, and token by token of the same kind, the values of numbers included. -/
abbrev SameKinds : List Token → List Token → Prop :=
  List.Forall₂ fun t t' => t.kind = t'.kind

namespace SameKinds

variable {ts ts' : List Token} {kind : Kind}

theorem symm (same : SameKinds ts ts') : SameKinds ts' ts :=
  (same.imp fun _ _ eq => eq.symm).flip

theorem exists_cons {literal : String} {offset : Nat}
    (same : SameKinds (⟨kind, literal, offset⟩ :: ts) ts') :
    ∃ literal' offset' rest, ts' = ⟨kind, literal', offset'⟩ :: rest ∧ SameKinds ts rest := by
  cases same with
  | @cons _ t' _ rest eq same =>
    obtain ⟨kind', literal', offset'⟩ := t'
    cases eq
    exact ⟨literal', offset', rest, rfl, same⟩

theorem ne_cons (same : SameKinds ts ts') (h : ∀ l o rest, ts ≠ ⟨kind, l, o⟩ :: rest) (l : String)
    (o : Nat) (rest : List Token) : ts' ≠ ⟨kind, l, o⟩ :: rest := by
  rintro rfl
  obtain ⟨l', o', rest', rfl, -⟩ := same.symm.exists_cons
  exact h l' o' rest' rfl

end SameKinds

namespace Expr

/-- The trees are the same except for the literals of their operators. -/
inductive Alike : Expr → Expr → Prop where
  | number (n : Int64) : Alike (.number n) (.number n)
  | not {e e' : Expr} (literal literal' : String) :
      Alike e e' → Alike (.not literal e) (.not literal' e')
  | binary {l l' r r' : Expr} (op : Operator) (literal literal' : String) :
      Alike l l' → Alike r r' → Alike (.binary op literal l r) (.binary op literal' l' r')
  | cond {c c' t t' e e' : Expr} :
      Alike c c' → Alike t t' → Alike e e' → Alike (.cond c t e) (.cond c' t' e')

def literals : Expr → List String
  | number _ => []
  | not literal e => literal :: e.literals
  | binary _ literal l r => l.literals ++ literal :: r.literals
  | cond c t e => c.literals ++ (t.literals ++ e.literals)

/-- The tree with its operators written anew: the `i`-th from the left as the `i`-th text. -/
def relabel : Expr → List String → Expr
  | number n, _ => number n
  | not _ e, texts => not (texts.headD "") (e.relabel texts.tail)
  | binary op _ l r, texts =>
    binary op ((texts.drop l.literals.length).headD "") (l.relabel texts)
      (r.relabel (texts.drop l.literals.length).tail)
  | cond c t e, texts =>
    cond (c.relabel texts) (t.relabel (texts.drop c.literals.length))
      (e.relabel ((texts.drop c.literals.length).drop t.literals.length))

theorem alike_relabel (e : Expr) (texts : List String) : e.Alike (e.relabel texts) := by
  induction e generalizing texts with
  | number n => exact .number n
  | not literal e ih => exact .not _ _ (ih _)
  | binary op literal l r ihl ihr => exact .binary op _ _ (ihl _) (ihr _)
  | cond c t e ihc iht ihe => exact .cond (ihc _) (iht _) (ihe _)

theorem Alike.refl (e : Expr) : e.Alike e := by
  induction e with
  | number n => exact .number n
  | not literal e ih => exact .not _ _ ih
  | binary op literal l r ihl ihr => exact .binary op _ _ ihl ihr
  | cond c t e ihc iht ihe => exact .cond ihc iht ihe

theorem Alike.trans {e e' e'' : Expr} (h : e.Alike e') (h' : e'.Alike e'') : e.Alike e'' := by
  induction h generalizing e'' with
  | number n => exact h'
  | not _ _ _ ih =>
    cases h' with
    | not _ _ h' => exact .not _ _ (ih h')
  | binary op _ _ _ _ ihl ihr =>
    cases h' with
    | binary _ _ _ hl hr => exact .binary op _ _ (ihl hl) (ihr hr)
  | cond _ _ _ ihc iht ihe =>
    cases h' with
    | cond hc ht he => exact .cond (ihc hc) (iht ht) (ihe he)

theorem Alike.length_literals {e e' : Expr} (h : e.Alike e') :
    e.literals.length = e'.literals.length := by
  induction h with
  | number n => rfl
  | not _ _ _ ih => simp [literals, ih]
  | binary _ _ _ _ _ ihl ihr => simp [literals, ihl, ihr]
  | cond _ _ _ ihc iht ihe => simp [literals, ihc, iht, ihe]

theorem Alike.relabel_append {e e' : Expr} (h : e.Alike e') (texts : List String) :
    e.relabel (e'.literals ++ texts) = e' := by
  induction h generalizing texts with
  | number n => rfl
  | not _ _ _ ih => simp [relabel, literals, ih]
  | binary _ _ _ hl _ ihl ihr => simp [relabel, literals, hl.length_literals, ihl, ihr]
  | cond hc ht _ ihc iht ihe =>
    simp [relabel, literals, hc.length_literals, ht.length_literals, ihc, iht, ihe]

theorem Alike.relabel_literals {e e' : Expr} (h : e.Alike e') : e.relabel e'.literals = e' := by
  have := h.relabel_append []
  rwa [List.append_nil] at this

theorem Alike.eq_of_literals {e e' : Expr} (h : e.Alike e') (eq : e.literals = e'.literals) :
    e = e' := by
  rw [← h.relabel_literals, ← eq, (Alike.refl e).relabel_literals]

end Expr

def Kind.isOperator : Kind → Bool
  | binary _ | bang => true
  | _ => false

def operatorLiterals (ts : List Token) : List String :=
  (ts.filter (·.kind.isOperator)).map Token.literal

theorem Derives.literals_eq {budget : Nat} {phrase : Phrase} {ts : List Token} {e : Expr}
    (h : Derives budget phrase ts e) : e.literals = operatorLiterals ts := by
  induction h with
  | number => rfl
  | not _ _ _ ih => simp [Expr.literals, operatorLiterals, Kind.isOperator, ih]
  | paren _ _ _ _ _ ih => simp [operatorLiterals, Kind.isOperator, ih]
  | tighter _ ih => exact ih
  | binary _ _ _ _ _ _ ihl ihr =>
    simp [Expr.literals, operatorLiterals, Kind.isOperator, ihl, ihr]
  | plain _ ih => exact ih
  | cond _ _ _ _ _ _ _ _ _ ihc iht ihe =>
    simp [Expr.literals, operatorLiterals, Kind.isOperator, ihc, iht, ihe]

structure Unexpected.Alike (u u' : Unexpected) : Prop where
  expected : u.expected = u'.expected
  remaining : SameKinds u.remaining u'.remaining

namespace Climb

structure Parsed.Alike (p p' : Parsed) : Prop where
  expr : p.expr.Alike p'.expr
  height : p.height = p'.height
  rest : SameKinds p.rest p'.rest

abbrev ReadAlike : Except Unexpected Parsed → Except Unexpected Parsed → Prop :=
  Matches Parsed.Alike Unexpected.Alike

variable {ts ts' : List Token}

theorem expect_alike (kind : Kind) (x : Expectation) (same : SameKinds ts ts') :
    Matches SameKinds Unexpected.Alike (expect kind x ts) (expect kind x ts') := by
  cases same with
  | nil => exact ⟨rfl, .nil⟩
  | @cons t t' rest rest' eq same =>
    simp only [expect, ← eq]
    split
    · exact same
    · exact ⟨rfl, .cons eq same⟩

theorem grow_alike (tallest : Nat) (same : SameKinds ts ts') :
    Matches (· = ·) Unexpected.Alike (grow tallest ts) (grow tallest ts') := by
  unfold grow
  split
  · rfl
  · exact ⟨rfl, same⟩

theorem read_alike :
    (∀ nesting ts, ∀ ts', SameKinds ts ts' →
      ReadAlike (conditional nesting ts) (conditional nesting ts')) ∧
    (∀ nesting least ts, ∀ ts', SameKinds ts ts' →
      ReadAlike (within nesting least ts) (within nesting least ts')) ∧
    (∀ nesting least lhs height ts, ∀ lhs' ts', lhs.Alike lhs' → SameKinds ts ts' →
      ReadAlike (chain nesting least lhs height ts) (chain nesting least lhs' height ts')) ∧
    (∀ nesting ts, ∀ ts', SameKinds ts ts' →
      ReadAlike (factor nesting ts) (factor nesting ts')) := by
  refine conditional.mutual_induct _ _ _ _ ?bare ?plain ?within ?operator ?looser ?other
    ?number ?bang ?bangDeep ?paren ?parenDeep ?neither
  case bare =>
    intro nesting literal offset rest ihc ih ts' same
    obtain ⟨literal', offset', rest', rfl, tail⟩ := same.exists_cons
    rw [conditional, conditional]
    refine (ihc rest' tail).bind fun c c' hc => ?_
    refine (expect_alike _ _ hc.rest).bind fun ts₁ ts₁' h₁ => ?_
    refine (ih ts₁ ts₁' h₁).bind fun t t' ht => ?_
    refine (expect_alike _ _ ht.rest).bind fun ts₂ ts₂' h₂ => ?_
    refine (ih ts₂ ts₂' h₂).bind fun e e' he => ?_
    rw [← hc.height, ← ht.height, ← he.height]
    refine (grow_alike _ same).bind fun height height' eq => ?_
    exact ⟨.cond hc.expr ht.expr he.expr, eq, he.rest⟩
  case plain =>
    intro nesting ts noIf ih ts' same
    rw [conditional_eq_within noIf, conditional_eq_within (same.ne_cons noIf)]
    exact ih ts' same
  case within =>
    intro nesting least ts ihf ihc ts' same
    rw [within, within]
    refine (ihf ts' same).bind fun x x' hx => ?_
    rw [← hx.height]
    exact ihc x x'.expr x'.rest hx.expr hx.rest
  case operator =>
    intro nesting least lhs height op literal offset rest le ihw ihc lhs' ts' alike same
    obtain ⟨literal', offset', rest', rfl, tail⟩ := same.exists_cons
    rw [chain, chain]
    simp only [le, dite_true]
    refine (ihw rest' tail).bind fun rhs rhs' hr => ?_
    rw [← hr.height]
    by_cases lt : max height rhs.height < depthLimit
    · simp only [lt, dite_true]
      exact ihc rhs lt _ _ (.binary op literal literal' alike hr.expr) hr.rest
    · simp only [lt, dite_false]
      exact ⟨rfl, same⟩
  case looser =>
    intro nesting least lhs height op literal offset rest lt lhs' ts' alike same
    obtain ⟨literal', offset', rest', rfl, tail⟩ := same.exists_cons
    rw [chain_of_stops (stops_binary.2 (Nat.not_le.1 lt)),
      chain_of_stops (stops_binary.2 (Nat.not_le.1 lt))]
    exact ⟨alike, rfl, same⟩
  case other =>
    intro nesting least lhs height ts noOperator lhs' ts' alike same
    have stops : Stops least ts := fun op l o rest eq => (noOperator op l o rest eq).elim
    have stops' : Stops least ts' := fun op l o rest eq =>
      (same.ne_cons (noOperator op) l o rest eq).elim
    rw [chain_of_stops stops, chain_of_stops stops']
    exact ⟨alike, rfl, same⟩
  case number =>
    intro nesting n literal offset rest ts' same
    obtain ⟨literal', offset', rest', rfl, tail⟩ := same.exists_cons
    rw [factor, factor]
    exact ⟨.number n, rfl, tail⟩
  case bang =>
    intro nesting literal offset rest lt ih ts' same
    obtain ⟨literal', offset', rest', rfl, tail⟩ := same.exists_cons
    rw [factor, factor]
    simp only [lt, dite_true]
    refine (ih rest' tail).bind fun x x' hx => ?_
    rw [← hx.height]
    refine (grow_alike _ same).bind fun height height' eq => ?_
    exact ⟨.not literal literal' hx.expr, eq, hx.rest⟩
  case bangDeep =>
    intro nesting literal offset rest deep ts' same
    obtain ⟨literal', offset', rest', rfl, tail⟩ := same.exists_cons
    rw [factor, factor]
    simp only [deep, dite_false]
    exact ⟨rfl, same⟩
  case paren =>
    intro nesting literal offset rest lt ih ts' same
    obtain ⟨literal', offset', rest', rfl, tail⟩ := same.exists_cons
    rw [factor, factor]
    simp only [lt, dite_true]
    refine (ih rest' tail).bind fun x x' hx => ?_
    refine (expect_alike _ _ hx.rest).bind fun after after' h => ?_
    exact ⟨hx.expr, hx.height, h⟩
  case parenDeep =>
    intro nesting literal offset rest deep ts' same
    obtain ⟨literal', offset', rest', rfl, tail⟩ := same.exists_cons
    rw [factor, factor]
    simp only [deep, dite_false]
    exact ⟨rfl, same⟩
  case neither =>
    intro nesting ts notNumber notBang notParen ts' same
    have refused : factor nesting ts' = .error ⟨.factor, ts'⟩ :=
      factor_eq_error_of_ne (fun n => same.ne_cons (notNumber n)) (same.ne_cons notBang)
        (same.ne_cons notParen)
    rw [factor_eq_error_of_ne notNumber notBang notParen, refused]
    exact ⟨rfl, same⟩

theorem whole_alike (same : SameKinds ts ts') :
    Matches Expr.Alike Unexpected.Alike (whole ts) (whole ts') := by
  rw [whole, whole]
  refine (read_alike.1 0 ts ts' same).bind fun p p' hp => ?_
  obtain ⟨e, height, rest⟩ := p
  obtain ⟨e', height', rest'⟩ := p'
  cases hp.rest with
  | nil => exact hp.expr
  | cons eq tail => exact ⟨rfl, .cons eq tail⟩

end Climb

/-- The errors say the same of the same place in two lists. -/
structure SyntaxError.Alike (ts ts' : List Token) (x x' : SyntaxError) : Prop where
  expected : x.expected = x'.expected
  place : ∃ i, x.StandsAt ts i ∧ x'.StandsAt ts' i

section ofTokens

variable {ts ts' : List Token}

theorem ofTokens_alike (same : SameKinds ts ts') :
    Matches Expr.Alike (SyntaxError.Alike ts ts') (Expr.ofTokens ts) (Expr.ofTokens ts') := by
  have alike := Climb.whole_alike same
  cases h : Climb.whole ts with
  | ok e =>
    obtain ⟨e', h', alike⟩ := alike.of_ok h
    rw [Expr.ofTokens_eq_ok.2 h, Expr.ofTokens_eq_ok.2 h']
    exact alike
  | error u =>
    obtain ⟨u', h', alike⟩ := alike.of_error h
    have place := Unexpected.locate_standsAt (Climb.whole_remaining_suffix h)
    have place' := Unexpected.locate_standsAt (Climb.whole_remaining_suffix h')
    rw [← same.length_eq, ← alike.remaining.length_eq] at place'
    rw [Expr.ofTokens_eq_error.2 ⟨u, h, rfl⟩, Expr.ofTokens_eq_error.2 ⟨u', h', rfl⟩]
    refine ⟨?_, _, place, place'⟩
    rw [u.locate_expected, u'.locate_expected, alike.expected]

theorem literals_of_ofTokens {e : Expr} (h : Expr.ofTokens ts = .ok e) :
    e.literals = operatorLiterals ts :=
  (Climb.reads_of_ofTokens h).derives.literals_eq

theorem ofTokens_relabel {e : Expr} (same : SameKinds ts ts') (h : Expr.ofTokens ts = .ok e) :
    Expr.ofTokens ts' = .ok (e.relabel (operatorLiterals ts')) := by
  obtain ⟨e', h', alike⟩ := (ofTokens_alike same).of_ok h
  rw [← literals_of_ofTokens h', alike.relabel_literals, h']

theorem ofTokens_eq_ok_iff_relabel {e : Expr} (same : SameKinds ts ts') :
    Expr.ofTokens ts = .ok e ↔
      e.literals = operatorLiterals ts ∧
        Expr.ofTokens ts' = .ok (e.relabel (operatorLiterals ts')) := by
  constructor
  · intro h
    exact ⟨literals_of_ofTokens h, ofTokens_relabel same h⟩
  · rintro ⟨literals, h⟩
    obtain ⟨e₂, h₂, alike⟩ := (ofTokens_alike same.symm).of_ok h
    rw [((e.alike_relabel _).trans alike).eq_of_literals
      (literals.trans (literals_of_ofTokens h₂).symm), h₂]

end ofTokens

end CondCalc
