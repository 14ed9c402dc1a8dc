import CondCalc.Proofs.Stack
import CondCalc.Proofs.Syntax.Reading

/-! How deeply the climbing functions call one another. Between two openings each call asks for a
tighter level than its caller, and there are seven of them besides the conditional and the factor;
so nine calls are active for each opening in force, and nine before the first. -/
namespace CondCalc.Climb

/-- The calls of the climbing functions. A chain is no call: it goes on in the call that began it. -/
inductive Call where
  | conditional (nesting : Nat) (ts : List Token)
  | within (nesting least : Nat) (ts : List Token)
  | factor (nesting : Nat) (ts : List Token)

namespace Call

def result : Call → Except Unexpected Parsed
  | conditional nesting ts => Climb.conditional nesting ts
  | within nesting least ts => Climb.within nesting least ts
  | factor nesting ts => Climb.factor nesting ts

@[simp] theorem result_conditional (nesting : Nat) (ts : List Token) :
    (conditional nesting ts).result = Climb.conditional nesting ts := rfl

@[simp] theorem result_within (nesting least : Nat) (ts : List Token) :
    (within nesting least ts).result = Climb.within nesting least ts := rfl

@[simp] theorem result_factor (nesting : Nat) (ts : List Token) :
    (factor nesting ts).result = Climb.factor nesting ts := rfl

/-- How many calls are active in the call at most, itself included. -/
def need : Call → Nat
  | conditional nesting _ => 9 * (depthLimit - nesting) + 9
  | within nesting least _ => 9 * (depthLimit - nesting) + (8 - min least 6)
  | factor nesting _ => 9 * (depthLimit - nesting) + 1

variable (calls : Call → Except (Halt Unexpected) Parsed)

def chain (nesting least : Nat) (lhs : Expr) (height : Nat) (ts : List Token) :
    Except (Halt Unexpected) Parsed :=
  match ts with
  | ⟨.binary op, literal, _⟩ :: rest =>
    if least ≤ op.level then do
      let rhs ← calls (within nesting (op.level + 1) rest)
      if _h : max height rhs.height < depthLimit then
        chain nesting least (.binary op literal lhs rhs.expr) (max height rhs.height + 1) rhs.rest
      else
        .error (.failed ⟨.shallowerNesting, ts⟩)
    else
      .ok ⟨lhs, height, ts⟩
  | _ => .ok ⟨lhs, height, ts⟩
termination_by depthLimit - height

def body : Call → Except (Halt Unexpected) Parsed
  | conditional nesting ts =>
    match ts with
    | ⟨.ifWord, _, _⟩ :: rest => do
      let c ← calls (within nesting 0 rest)
      let rest ← lift (expect .thenWord .thenWord c.rest)
      let t ← calls (within nesting 0 rest)
      let rest ← lift (expect .elseWord .elseWord t.rest)
      let e ← calls (within nesting 0 rest)
      let height ← lift (grow (max (max c.height t.height) e.height) ts)
      return ⟨.cond c.expr t.expr e.expr, height, e.rest⟩
    | _ => calls (within nesting 0 ts)
  | within nesting least ts => do
    let lhs ← calls (factor nesting ts)
    chain calls nesting least lhs.expr lhs.height lhs.rest
  | factor nesting ts =>
    match ts with
    | ⟨.number n, _, _⟩ :: rest => .ok ⟨.number n, 1, rest⟩
    | ⟨.bang, literal, _⟩ :: rest =>
      if nesting < depthLimit then do
        let x ← calls (factor (nesting + 1) rest)
        let height ← lift (grow x.height ts)
        return ⟨.not literal x.expr, height, x.rest⟩
      else
        .error (.failed ⟨.shallowerNesting, ts⟩)
    | ⟨.leftParen, _, _⟩ :: rest =>
      if nesting < depthLimit then do
        let x ← calls (conditional (nesting + 1) rest)
        let rest ← lift (expect .rightParen .closeParen x.rest)
        return ⟨x.expr, x.height, rest⟩
      else
        .error (.failed ⟨.shallowerNesting, ts⟩)
    | _ => .error (.failed ⟨.factor, ts⟩)

theorem chain_result (nesting least : Nat) (lhs : Expr) (height : Nat) (ts : List Token) :
    chain (fun c => lift c.result) nesting least lhs height ts =
      lift (Climb.chain nesting least lhs height ts) := by
  fun_induction chain (fun c => lift c.result) nesting least lhs height ts with
  | case1 lhs height op literal offset rest le ih =>
    rw [Climb.chain]
    simp only [le, dite_true, lift_bind, result_within]
    refine bind_congr fun rhs => ?_
    by_cases lt : max height rhs.height < depthLimit
    · simp only [lt, dite_true, ih rhs lt]
    · simp only [lt, dite_false, lift_error]
  | case2 lhs height op literal offset rest looser =>
    rw [chain_of_stops (stops_binary.2 (Nat.not_le.1 looser)), lift_ok]
  | case3 lhs height ts other =>
    rw [chain_of_stops fun op l o rest eq => (other op l o rest eq).elim, lift_ok]

theorem body_result (c : Call) : body (fun c => lift c.result) c = lift c.result := by
  cases c with
  | conditional nesting ts =>
    rw [result_conditional, Climb.conditional.eq_def]
    split
    next => simp only [body, lift_bind, result_within]; rfl
    next other => rw [body, result_within]; exact other
  | within nesting least ts =>
    rw [result_within, Climb.within, body]
    simp only [lift_bind, result_factor, chain_result]
  | factor nesting ts =>
    rw [result_factor, Climb.factor.eq_def]
    split
    next => rw [body, lift_ok]
    next =>
      split
      next lt => simp only [body, lt, if_true, lift_bind, result_factor]; rfl
      next full => simp only [body, full, if_false, lift_error]
    next =>
      split
      next lt => simp only [body, lt, if_true, lift_bind, result_conditional]; rfl
      next full => simp only [body, full, if_false, lift_error]
    next number bang paren => rw [body, lift_error]; exacts [number, bang, paren]

theorem chain_congr {calls calls' : Call → Except (Halt Unexpected) Parsed} {nesting least : Nat}
    (same : ∀ l ts, least < l → l ≤ 6 → calls (within nesting l ts) = calls' (within nesting l ts))
    (lhs : Expr) (height : Nat) (ts : List Token) :
    chain calls nesting least lhs height ts = chain calls' nesting least lhs height ts := by
  fun_induction chain calls nesting least lhs height ts with
  | case1 lhs height op literal offset rest le ih =>
    rw [chain]
    simp only [le, if_true, same (op.level + 1) rest (Nat.lt_succ_of_le le) op.level_lt_six]
    refine bind_congr fun rhs => ?_
    by_cases lt : max height rhs.height < depthLimit
    · simp only [lt, dite_true, ih rhs lt]
    · simp only [lt, dite_false]
  | case2 lhs height op literal offset rest looser =>
    rw [chain]
    simp only [looser, if_false]
  | case3 lhs height ts other =>
    rw [chain]
    exact other

theorem body_descends : Descends body need where
  need_pos c := by
    cases c <;> simp only [need] <;> omega
  congr c calls calls' same := by
    cases c with
    | conditional nesting ts =>
      have inner (ts' : List Token) : calls (within nesting 0 ts') = calls' (within nesting 0 ts') :=
        same _ (by simp only [need]; omega)
      unfold body
      simp only [inner]
    | within nesting least ts =>
      have first : calls (factor nesting ts) = calls' (factor nesting ts) :=
        same _ (by simp only [need]; omega)
      -- a chain that has operands asks for less than six, and they for six at most
      have operands : ∀ l ts', least < l → l ≤ 6 →
          calls (within nesting l ts') = calls' (within nesting l ts') :=
        fun l ts' lt le => same _ (by simp only [need]; omega)
      simp only [body, first, chain_congr operands]
    | factor nesting ts =>
      unfold body
      by_cases lt : nesting < depthLimit
      · have operand (ts' : List Token) :
            calls (factor (nesting + 1) ts') = calls' (factor (nesting + 1) ts') :=
          same _ (by simp only [need]; omega)
        have inner (ts' : List Token) :
            calls (conditional (nesting + 1) ts') = calls' (conditional (nesting + 1) ts') :=
          same _ (by simp only [need]; omega)
        simp only [operand, inner]
      · simp only [lt, if_false]

theorem onStack_eq {c : Call} {room : Nat} (enough : c.need ≤ room) :
    onStack body room c = lift c.result :=
  body_descends.onStack_eq body_result enough

end Call

def wholeOnStack (room : Nat) (ts : List Token) : Except (Halt Unexpected) Expr := do
  let p ← onStack Call.body room (.conditional 0 ts)
  if p.rest.isEmpty then
    return p.expr
  else
    .error (.failed ⟨.endOfInput, p.rest⟩)

theorem wholeOnStack_eq (ts : List Token) :
    wholeOnStack (9 * (depthLimit + 1)) ts = lift (whole ts) := by
  have enough : (Call.conditional 0 ts).need ≤ 9 * (depthLimit + 1) := by
    simp only [Call.need]
    omega
  rw [wholeOnStack, whole, Call.onStack_eq enough, Call.result_conditional, lift_bind]
  refine bind_congr fun p => ?_
  split
  next => rfl
  next => rfl

section tower

/-! Tokens that need all this room: operators that rise from the loosest level to the tightest, so
that each stands in the right operand of the one before it; then a parenthesis, and so on again. -/

def zeroToken : Token :=
  ⟨.number 0, "0", 0⟩

def ladder : List Token :=
  [.or, .and, .eq, .lt, .add, .mul].flatMap fun op => [zeroToken, ⟨.binary op, op.spelling, 0⟩]

def tower : Nat → List Token
  | 0 => ladder
  | n + 1 => ladder ++ ⟨.leftParen, "(", 0⟩ :: tower n

variable {room nesting least : Nat} {ts : List Token}

theorem exhausted_operand (op : Operator) (le : least ≤ op.level)
    (h : onStack Call.body (room + 1) (.within nesting (op.level + 1) ts) = .error .exhausted) :
    onStack Call.body (room + 2)
      (.within nesting least (zeroToken :: ⟨.binary op, op.spelling, 0⟩ :: ts)) =
        .error .exhausted := by
  have first (ts' : List Token) :
      onStack Call.body (room + 1) (.factor nesting (zeroToken :: ts')) =
        .ok ⟨.number 0, 1, ts'⟩ := by
    rw [onStack, zeroToken, Call.body]
  rw [onStack, Call.body, first, ok_bind, Call.chain, if_pos le, h, error_bind]

theorem exhausted_ladder
    (h : onStack Call.body room (.factor nesting ts) = .error .exhausted) :
    onStack Call.body (room + 8) (.conditional nesting (ladder ++ ts)) = .error .exhausted := by
  have top : onStack Call.body (room + 1) (.within nesting 6 ts) = .error .exhausted := by
    rw [onStack, Call.body, h, error_bind]
  rw [onStack, Call.body]
  · exact exhausted_operand .or (by decide) <| exhausted_operand .and (by decide) <|
      exhausted_operand .eq (by decide) <| exhausted_operand .lt (by decide) <|
      exhausted_operand .add (by decide) <| exhausted_operand .mul (by decide) top
  · simp [ladder, zeroToken]

theorem exhausted_tower {n : Nat} (le : n + nesting ≤ depthLimit) :
    onStack Call.body (9 * n + 8) (.conditional nesting (tower n)) = .error .exhausted := by
  induction n generalizing nesting with
  | zero =>
    rw [tower, ← List.append_nil ladder]
    exact exhausted_ladder rfl
  | succ n ih =>
    have lt : nesting < depthLimit := by omega
    have opened : onStack Call.body (9 * n + 9)
        (.factor nesting (⟨.leftParen, "(", 0⟩ :: tower n)) = .error .exhausted := by
      rw [onStack, Call.body, if_pos lt, ih (by omega), error_bind]
    exact exhausted_ladder opened

theorem wholeOnStack_tower :
    wholeOnStack (9 * (depthLimit + 1) - 1) (tower depthLimit) = .error .exhausted := by
  have exhausted : onStack Call.body (9 * depthLimit + 8) (.conditional 0 (tower depthLimit)) =
      .error .exhausted := exhausted_tower (Nat.le_refl depthLimit)
  rw [wholeOnStack]
  exact congrArg (· >>= _) exhausted

end tower

end CondCalc.Climb

namespace CondCalc

/-- As `ofTokens`, with room for so many calls at once. -/
def Expr.ofTokensOnStack (room : Nat) (ts : List Token) : Except (Halt SyntaxError) Expr :=
  (Climb.wholeOnStack room ts).mapError (Halt.map (·.locate ts))

theorem Expr.ofTokensOnStack_eq (ts : List Token) :
    Expr.ofTokensOnStack (9 * (depthLimit + 1)) ts = lift (Expr.ofTokens ts) := by
  rw [ofTokensOnStack, Climb.wholeOnStack_eq, mapError_lift, ofTokens]

theorem Expr.ofTokensOnStack_tower :
    Expr.ofTokensOnStack (9 * (depthLimit + 1) - 1) (Climb.tower depthLimit) =
      .error .exhausted := by
  rw [ofTokensOnStack, Climb.wholeOnStack_tower]
  rfl

end CondCalc
