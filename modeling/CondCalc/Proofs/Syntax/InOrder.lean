import CondCalc.Proofs.Syntax.Nodes
import CondCalc.Proofs.Syntax.Reading
import CondCalc.Proofs.Syntax.Relabelling

/-! A tree read in order, each operator between its operands and each `!` and `if` before its own.
This gives back the tokens that the tree was read from, all but those that only group the others;
and these come in the numbers that the tree asks for. -/
namespace CondCalc

/-- Parentheses, `then` and `else` show how other tokens belong together, and leave no node. -/
def Kind.groups : Kind → Bool
  | leftParen | rightParen | thenWord | elseWord => true
  | _ => false

def ungrouped (ts : List Token) : List Token :=
  ts.filter fun t => !t.kind.groups

/-- What a node keeps of its token: the kind, with the value of a number in it, and of an operator
the literal. -/
def Token.trace (t : Token) : Kind × Option String :=
  (t.kind, if t.kind.isOperator then some t.literal else none)

def occurrences (k : Kind) (ts : List Token) : Nat :=
  ts.countP fun t => t.kind = k

@[simp] theorem occurrences_nil (k : Kind) : occurrences k [] = 0 := rfl

@[simp] theorem occurrences_cons (k : Kind) (t : Token) (ts : List Token) :
    occurrences k (t :: ts) = occurrences k ts + if t.kind = k then 1 else 0 := by
  simp [occurrences, List.countP_cons]

@[simp] theorem occurrences_append (k : Kind) (ts us : List Token) :
    occurrences k (ts ++ us) = occurrences k ts + occurrences k us :=
  List.countP_append

namespace Expr

def inOrder : Expr → List (Kind × Option String)
  | number n => [(.number n, none)]
  | not literal e => (.bang, some literal) :: e.inOrder
  | binary op literal l r => l.inOrder ++ (.binary op, some literal) :: r.inOrder
  | cond c t e => (.ifWord, none) :: (c.inOrder ++ (t.inOrder ++ e.inOrder))

theorem length_inOrder (e : Expr) : e.inOrder.length = e.size := by
  induction e with
  | number n => rfl
  | not literal e ih => simp [inOrder, size, ih, Nat.add_comm]
  | binary op literal l r ihl ihr =>
    simp only [inOrder, List.length_append, List.length_cons, ihl, ihr, size]
    omega
  | cond c t e ihc iht ihe =>
    simp only [inOrder, List.length_append, List.length_cons, ihc, iht, ihe, size]
    omega

def isCond : Expr → Bool
  | cond .. => true
  | _ => false

def conds (e : Expr) : Nat :=
  e.nodes.countP isCond

@[simp] theorem conds_number (n : Int64) : (number n).conds = 0 := rfl

@[simp] theorem conds_not (literal : String) (e : Expr) : (not literal e).conds = e.conds := by
  simp [conds, isCond]

@[simp] theorem conds_binary (op : Operator) (literal : String) (l r : Expr) :
    (binary op literal l r).conds = l.conds + r.conds := by
  simp [conds, isCond]

@[simp] theorem conds_cond (c t e : Expr) :
    (cond c t e).conds = c.conds + t.conds + e.conds + 1 := by
  simp [conds, isCond, List.countP_cons, Nat.add_assoc]

end Expr

namespace Derives

variable {budget : Nat} {phrase : Phrase} {ts : List Token} {e : Expr}

theorem inOrder_eq (h : Derives budget phrase ts e) :
    e.inOrder = (ungrouped ts).map Token.trace := by
  unfold ungrouped
  induction h with
  | number => rfl
  | not _ _ _ ih => simp [Expr.inOrder, Kind.groups, Token.trace, Kind.isOperator, ih]
  | paren _ _ _ _ _ ih => simp [Kind.groups, ih]
  | tighter _ ih => exact ih
  | binary _ _ _ _ _ _ ihl ihr =>
    simp [Expr.inOrder, Kind.groups, Token.trace, Kind.isOperator, ihl, ihr]
  | plain _ ih => exact ih
  | cond _ _ _ _ _ _ _ _ _ ihc iht ihe =>
    simp [Expr.inOrder, Kind.groups, Token.trace, Kind.isOperator, ihc, iht, ihe]

theorem occurrences_word (h : Derives budget phrase ts e) {k : Kind}
    (word : k ∈ [.ifWord, .thenWord, .elseWord]) : occurrences k ts = e.conds := by
  simp only [List.mem_cons, List.not_mem_nil, or_false] at word
  induction h with
  | number => rcases word with rfl | rfl | rfl <;> rfl
  | not _ _ _ ih => rcases word with rfl | rfl | rfl <;> simpa using ih
  | paren _ _ _ _ _ ih => rcases word with rfl | rfl | rfl <;> simpa using ih
  | tighter _ ih => exact ih
  | binary _ _ _ _ _ _ ihl ihr => rcases word with rfl | rfl | rfl <;> simp [ihl, ihr]
  | plain _ ih => exact ih
  | cond _ _ _ _ _ _ _ _ _ ihc iht ihe =>
    simp only [occurrences_cons, occurrences_append, ihc, iht, ihe, Expr.conds_cond]
    rcases word with rfl | rfl | rfl <;> simp <;> omega

theorem occurrences_paren (h : Derives budget phrase ts e) :
    occurrences .leftParen ts = occurrences .rightParen ts := by
  induction h with
  | number => rfl
  | not _ _ _ ih => simpa using ih
  | paren _ _ _ _ _ ih => simpa using ih
  | tighter _ ih => exact ih
  | binary _ _ _ _ _ _ ihl ihr => simp [ihl, ihr]
  | plain _ ih => exact ih
  | cond _ _ _ _ _ _ _ _ _ ihc iht ihe => simp [ihc, iht, ihe]

end Derives

/-- No token is lost, doubled or moved. Read in order, the tree of a list of tokens gives the tokens
that leave a node, as they stand in the list and with their literals, so it has as many nodes; every
`if` has a `then` and an `else`, and every `(` has a `)`. -/
theorem ofTokens_inOrder (ts : List Token) (e : Expr) (h : Expr.ofTokens ts = .ok e) :
    e.inOrder = (ungrouped ts).map Token.trace ∧ e.size = (ungrouped ts).length ∧
      (∀ k ∈ [.ifWord, .thenWord, .elseWord], occurrences k ts = e.conds) ∧
      occurrences .leftParen ts = occurrences .rightParen ts := by
  have derives := (Climb.reads_of_ofTokens h).derives
  have inOrder := derives.inOrder_eq
  refine ⟨inOrder, ?_, fun k word => derives.occurrences_word word, derives.occurrences_paren⟩
  rw [← e.length_inOrder, inOrder, List.length_map]

/-- In `if ! ( 1 minus 2 ) then ( ( 3 ) ) else 4 times 5` the operators are not written in their own
spelling, and the tree keeps what they are written as. -/
theorem ofTokens_inOrder_choice :
    let ts : List Token := [⟨.ifWord, "if", 0⟩, ⟨.bang, "not", 3⟩, ⟨.leftParen, "(", 7⟩,
      ⟨.number 1, "1", 8⟩, ⟨.binary .sub, "minus", 10⟩, ⟨.number 2, "2", 16⟩,
      ⟨.rightParen, ")", 17⟩, ⟨.thenWord, "then", 19⟩, ⟨.leftParen, "(", 24⟩,
      ⟨.leftParen, "(", 25⟩, ⟨.number 3, "3", 26⟩, ⟨.rightParen, ")", 27⟩,
      ⟨.rightParen, ")", 28⟩, ⟨.elseWord, "else", 30⟩, ⟨.number 4, "4", 35⟩,
      ⟨.binary .mul, "times", 37⟩, ⟨.number 5, "5", 43⟩]
    let e : Expr := .cond (.not "not" (.binary .sub "minus" (.number 1) (.number 2))) (.number 3)
      (.binary .mul "times" (.number 4) (.number 5))
    Expr.ofTokens ts = .ok e ∧
    e.inOrder = (ungrouped ts).map Token.trace ∧ e.size = (ungrouped ts).length ∧
      (∀ k ∈ [.ifWord, .thenWord, .elseWord], occurrences k ts = e.conds) ∧
      occurrences .leftParen ts = occurrences .rightParen ts := by
  intro ts e
  have h : Expr.ofTokens ts = .ok e := by
    cbv
  exact ⟨h, ofTokens_inOrder ts e h⟩

end CondCalc
