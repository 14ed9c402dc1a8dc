import CondCalc.Proofs.Syntax.Levels
import CondCalc.Proofs.Syntax.Stack

/-! Climbing with a counter. The openings in force need not be handed down: a reader can keep their
number, raise it at a `!` or a `(` and lower it again when the operand has been read. With the room
that the plain functions need for their calls such a reader ends as they do. It is back at the number
that it began with after every request that is met; and until then, or until the request fails, it
stays between this number and the limit. -/
namespace CondCalc

namespace Climb

structure Reader where
  tokens : List Token
  /-- The position after the last token there was. -/
  stop : Nat
  /-- How many `!` and `(` are in force. -/
  depth : Nat
  /-- Every value that the depth was given, the last of them first. -/
  depths : List Nat
deriving DecidableEq

/-- A reader stays where it fails. There is no outcome at all if it runs out of room. -/
abbrev Reading := ExceptT SyntaxError (StateT Reader Option)

def refusal (stop : Nat) (expected : Expectation) : Option Token → SyntaxError
  | some t => ⟨expected, some t, t.span⟩
  | none => ⟨expected, none, ⟨stop, 0⟩⟩

theorem locate_eq_refusal (u : Unexpected) (ts : List Token) :
    u.locate ts = refusal (endOffset ts) u.expected u.remaining.head? := by
  rw [Unexpected.locate]
  cases u.remaining <;> rfl

namespace Counted

def peek : Reading (Option Token) :=
  return (← get).tokens.head?

def next : Reading (Option Token) := do
  let found ← peek
  modify fun r => { r with tokens := r.tokens.tail }
  return found

def refuse {α : Type} (expected : Expectation) (found : Option Token) : Reading α := do
  throw (refusal (← get).stop expected found)

def expect (kind : Kind) (expected : Expectation) : Reading Unit := do
  let found ← next
  if found.map Token.kind = some kind then return () else refuse expected found

def grow (tallest : Nat) (t : Token) : Reading Nat :=
  if tallest < depthLimit then return tallest + 1 else refuse .shallowerNesting (some t)

/-- All changes of the depth are made here. -/
def setDepth (depth : Nat) : Reading Unit :=
  modify fun r => { r with depth, depths := depth :: r.depths }

def enter (t : Token) : Reading Unit := do
  let depth := (← get).depth
  if depth < depthLimit then setDepth (depth + 1) else refuse .shallowerNesting (some t)

def leave : Reading Unit := do
  setDepth ((← get).depth - 1)

inductive Request where
  | conditional
  | within (power : Nat)
  | factor

section body

variable (calls : Request → Reading (Expr × Nat))

def chain (power : Nat) (lhs : Expr) (height : Nat) : Reading (Expr × Nat) := do
  match ← peek with
  | some ⟨.binary op, literal, offset⟩ =>
    if power ≤ op.leftPower then do
      let _ ← next
      let rhs ← calls (.within op.rightPower)
      if _h : max height rhs.2 < depthLimit then
        chain power (.binary op literal lhs rhs.1) (max height rhs.2 + 1)
      else
        refuse .shallowerNesting (some ⟨.binary op, literal, offset⟩)
    else
      return (lhs, height)
  | _ => return (lhs, height)
termination_by depthLimit - height

def body : Request → Reading (Expr × Nat)
  | .conditional => do
    match ← peek with
    | some ⟨.ifWord, literal, offset⟩ => do
      let _ ← next
      let c ← calls (.within 0)
      expect .thenWord .thenWord
      let t ← calls (.within 0)
      expect .elseWord .elseWord
      let e ← calls (.within 0)
      let height ← grow (max (max c.2 t.2) e.2) ⟨.ifWord, literal, offset⟩
      return (.cond c.1 t.1 e.1, height)
    | _ => calls (.within 0)
  | .within power => do
    let lhs ← calls .factor
    chain calls power lhs.1 lhs.2
  | .factor => do
    match ← next with
    | some ⟨.number n, _, _⟩ => return (.number n, 1)
    | some ⟨.bang, literal, offset⟩ => do
      enter ⟨.bang, literal, offset⟩
      let x ← calls .factor
      leave
      let height ← grow x.2 ⟨.bang, literal, offset⟩
      return (.not literal x.1, height)
    | some ⟨.leftParen, literal, offset⟩ => do
      enter ⟨.leftParen, literal, offset⟩
      let x ← calls .conditional
      leave
      expect .rightParen .closeParen
      return x
    | found => refuse .factor found

end body

/-- What is asked for, with room for so many requests that are open at once, this one included. -/
def Request.read (request : Request) : Nat → Reading (Expr × Nat)
  | 0 => liftM (none : Option (Expr × Nat))
  | room + 1 => body (fun inner => inner.read room) request

end Counted

/-- On the way from `r` to `r'` the depth was only given values between `least` and the limit, of which
it has the last one now. -/
def Reader.Moves (r : Reader) (least : Nat) (r' : Reader) : Prop :=
  ∃ passed, r'.depths = passed ++ r.depths ∧ r'.depth = passed.headD r.depth ∧
    ∀ d ∈ passed, least ≤ d ∧ d ≤ depthLimit

namespace Reader.Moves

variable {least least' : Nat} {r r' r'' : Reader}

theorem refl (least : Nat) (r : Reader) : r.Moves least r :=
  ⟨[], rfl, rfl, List.forall_mem_nil _⟩

theorem trans (h : r.Moves least r') (h' : r'.Moves least r'') : r.Moves least r'' := by
  obtain ⟨passed, eq, last, inside⟩ := h
  obtain ⟨passed', eq', last', inside'⟩ := h'
  refine ⟨passed' ++ passed, ?_, ?_, List.forall_mem_append.2 ⟨inside', inside⟩⟩
  · rw [eq', eq, List.append_assoc]
  · rw [last', last]
    cases passed' <;> rfl

theorem mono (le : least ≤ least') (h : r.Moves least' r') : r.Moves least r' := by
  obtain ⟨passed, eq, last, inside⟩ := h
  exact ⟨passed, eq, last, fun d mem => ⟨Nat.le_trans le (inside d mem).1, (inside d mem).2⟩⟩

theorem set (r : Reader) {depth : Nat} (ge : least ≤ depth) (le : depth ≤ depthLimit) :
    r.Moves least { r with depth, depths := depth :: r.depths } :=
  ⟨[depth], rfl, rfl, List.forall_mem_singleton.2 ⟨ge, le⟩⟩

end Reader.Moves

/-- The reading from `r` comes to an end, and as the plain computation does: where that one has a
result, `view` says which value it stands for and which tokens are left. On the way the depth stays
between the one it began with and the limit; and unless there is an error it gets back there. -/
def Agrees {α β : Type} (view : β → α × List Token) (m : Reading α) (r : Reader)
    (x : Except Unexpected β) : Prop :=
  ∃ y r', m.run.run r = some (y, r') ∧ r'.stop = r.stop ∧ r.Moves r.depth r' ∧
    Matches (fun b a => view b = (a, r'.tokens) ∧ r'.depth = r.depth)
      (fun u e => e = refusal r.stop u.expected u.remaining.head?) x y

def Parsed.view (p : Parsed) : (Expr × Nat) × List Token :=
  ((p.expr, p.height), p.rest)

section rules

variable {α β γ δ : Type} {view : β → α × List Token} {view' : δ → γ × List Token} {r r' : Reader}
  {m : Reading α} {f : α → Reading γ} {x : Except Unexpected β} {g : β → Except Unexpected δ}

theorem run_bind (m : Reading α) (f : α → Reading γ) (r : Reader) :
    (m >>= f).run.run r = (m.run.run r).bind fun
      | (.ok a, r') => (f a).run.run r'
      | (.error e, r') => some (.error e, r') := by
  rw [ExceptT.run_bind, StateT.run_bind]
  refine bind_congr fun outcome => ?_
  rcases outcome with ⟨_ | a, r'⟩ <;> rfl

theorem run_get (r : Reader) : (get : Reading Reader).run.run r = some (.ok r, r) := rfl

theorem run_bind_of_ok {a : α} (h : m.run.run r = some (.ok a, r')) :
    (m >>= f).run.run r = (f a).run.run r' := by
  rw [run_bind, h]
  rfl

theorem Agrees.behind {a : α} {ts : List Token} {y : Except Unexpected δ}
    (run : m.run.run r = some (.ok a, { r with tokens := ts }))
    (h : Agrees view' (f a) { r with tokens := ts } y) : Agrees view' (m >>= f) r y := by
  rwa [Agrees, run_bind_of_ok run]

theorem Agrees.pure {a : α} {b : β} (h : view b = (a, r.tokens)) :
    Agrees view (pure a) r (.ok b) :=
  ⟨.ok a, r, rfl, rfl, .refl _ r, h, rfl⟩

theorem Agrees.refuse {expected : Expectation} {ts : List Token} {found : Option Token}
    (h : ts.head? = found) :
    Agrees view (Counted.refuse expected found) r (.error ⟨expected, ts⟩) := by
  refine ⟨.error (refusal r.stop expected found), r, rfl, rfl, .refl _ r, ?_⟩
  rw [← h]
  exact rfl

theorem Agrees.bind (h : Agrees view m r x) (hf : ∀ b depths, x = .ok b →
    Agrees view' (f (view b).1) { r with tokens := (view b).2, depths } (g b)) :
    Agrees view' (m >>= f) r (x >>= g) := by
  obtain ⟨y, r', run, stop, moves, same⟩ := h
  rcases same.cases with ⟨b, a, rfl, rfl, value, depth⟩ | ⟨u, e, rfl, rfl, refused⟩
  · obtain ⟨y', r'', run', stop', moves', same'⟩ := hf b r'.depths rfl
    have place : { r with tokens := (view b).2, depths := r'.depths } = r' := by
      rw [value, ← stop, ← depth]
    rw [place] at run' moves'
    rw [value] at run'
    rw [depth] at moves'
    exact ⟨y', r'', by rw [run_bind_of_ok run, run'], stop', moves.trans moves', same'⟩
  · exact ⟨.error e, r', by rw [run_bind, run]; rfl, stop, moves, refused⟩

/-- The depth is raised before a part and lowered behind it. If the part fails it stays raised, but
then all that called for the part fails with it. -/
theorem Agrees.enclosed {t : Token} (lt : r.depth < depthLimit)
    (h : ∀ depths, Agrees view m { r with depth := r.depth + 1, depths } x)
    (hf : ∀ b depths, x = .ok b →
      Agrees view' (f (view b).1) { r with tokens := (view b).2, depths } (g b)) :
    Agrees view' (do Counted.enter t; let a ← m; Counted.leave; f a) r (x >>= g) := by
  have entered : (Counted.enter t).run.run r =
      some (.ok (), { r with depth := r.depth + 1, depths := (r.depth + 1) :: r.depths }) := by
    rw [Counted.enter, run_bind_of_ok (run_get r), if_pos lt]
    rfl
  obtain ⟨y, r', run, stop, moves, same⟩ := h ((r.depth + 1) :: r.depths)
  have moves' : r.Moves r.depth r' := (Reader.Moves.set r (Nat.le_succ _) lt).trans
    (moves.mono (Nat.le_succ _))
  rcases same.cases with ⟨b, a, rfl, rfl, value, depth⟩ | ⟨u, e, rfl, rfl, refused⟩
  · have left : Counted.leave.run.run r' =
        some (.ok (), { r' with depth := r.depth, depths := r.depth :: r'.depths }) := by
      rw [Counted.leave, run_bind_of_ok (run_get r'), depth]
      rfl
    obtain ⟨y', r'', run', stop', moves'', same'⟩ := hf b (r.depth :: r'.depths) rfl
    have place : { r with tokens := (view b).2, depths := r.depth :: r'.depths } =
        { r' with depth := r.depth, depths := r.depth :: r'.depths } := by
      rw [value, ← stop]
    rw [place] at run' moves''
    rw [value] at run'
    have back := Reader.Moves.set r' (Nat.le_refl r.depth) (Nat.le_of_lt lt)
    refine ⟨y', r'', ?_, stop', moves'.trans (back.trans moves''), same'⟩
    rw [run_bind_of_ok entered, run_bind_of_ok run, run_bind_of_ok left, run']
  · refine ⟨.error e, r', ?_, stop, moves', refused⟩
    rw [run_bind_of_ok entered, run_bind, run]
    rfl

theorem Agrees.too_deep {f : Unit → Reading γ} {t : Token} {ts : List Token}
    (deep : ¬r.depth < depthLimit) :
    Agrees view' (Counted.enter t >>= f) r (.error ⟨.shallowerNesting, t :: ts⟩) := by
  have refused : (Counted.enter t).run.run r =
      some (.error (refusal r.stop .shallowerNesting (some t)), r) := by
    rw [Counted.enter, run_bind_of_ok (run_get r), if_neg deep]
    rfl
  refine ⟨.error (refusal r.stop .shallowerNesting (some t)), r, ?_, rfl, .refl _ r, rfl⟩
  rw [run_bind, refused]
  rfl

theorem agrees_expect (kind : Kind) (expected : Expectation) (r : Reader) :
    Agrees (fun rest => ((), rest)) (Counted.expect kind expected) r
      (expect kind expected r.tokens) := by
  obtain ⟨ts, stop, depth, depths⟩ := r
  rw [Counted.expect]
  refine .behind rfl ?_
  cases ts with
  | nil => exact .refuse rfl
  | cons t ts =>
    simp only [expect, List.head?_cons, Option.map_some, Option.some.injEq]
    split
    next => exact .pure rfl
    next => exact .refuse rfl

theorem agrees_grow (tallest : Nat) (t : Token) (ts : List Token) (r : Reader) :
    Agrees (fun n => (n, r.tokens)) (Counted.grow tallest t) r (grow tallest (t :: ts)) := by
  rw [Counted.grow, grow]
  split
  next => exact .pure rfl
  next => exact .refuse rfl

end rules

theorem ne_cons_of_head? {ts : List Token} {t : Token} (h : ts.head? = some t → False)
    (rest : List Token) : ts ≠ t :: rest :=
  fun eq => h (eq ▸ rfl)

namespace Counted

namespace Request

/-- The call of the function that is told the depth and keeps no count of it. -/
def call (nesting : Nat) (ts : List Token) : Request → Call
  | conditional => .conditional nesting ts
  | within power => .within nesting (power / 2) ts
  | factor => .factor nesting ts

theorem need_call_le (request : Request) (nesting : Nat) (ts : List Token) :
    (request.call nesting ts).need ≤ 9 * (depthLimit - nesting) + 9 := by
  cases request <;> simp only [call, Call.need] <;> omega

theorem takes {request : Request} {nesting : Nat} {ts : List Token} {p : Parsed}
    (h : (request.call nesting ts).result = .ok p) : ∃ phrase, Takes phrase nesting ts p := by
  cases request with
  | conditional => exact ⟨_, conditional_takes h⟩
  | within power =>
    rw [call, Call.result_within, ← within_min_six] at h
    exact ⟨_, within_takes (Nat.min_le_right _ 6) h⟩
  | factor => exact ⟨_, factor_takes h⟩

end Request

section step

variable {calls : Request → Reading (Expr × Nat)} {room : Nat}
  (ih : ∀ (request : Request) (nesting : Nat) (ts : List Token) (stop : Nat) (depths : List Nat),
    (request.call nesting ts).need ≤ room →
      Agrees Parsed.view (calls request) ⟨ts, stop, nesting, depths⟩ (request.call nesting ts).result)
include ih

theorem agrees_chain {power height nesting stop : Nat} {lhs : Expr} {ts : List Token}
    {depths : List Nat} (enough : 9 * (depthLimit - nesting) + (7 - min (power / 2) 6) ≤ room) :
    Agrees Parsed.view (chain calls power lhs height) ⟨ts, stop, nesting, depths⟩
      (Climb.chain nesting (power / 2) lhs height ts) := by
  fun_induction chain calls power lhs height generalizing ts depths with
  | case1 lhs height further =>
    refine .behind rfl ?_
    split
    next op literal offset head =>
      obtain ⟨rest, rfl⟩ := List.head?_eq_some_iff.1 head
      by_cases taken : power ≤ op.leftPower
      · have le : power / 2 ≤ op.level := Operator.le_leftPower_iff.1 taken
        have tight := op.level_lt_six
        have rhs := ih (.within op.rightPower) nesting rest stop
        rw [Request.call, Call.result_within, Call.need, op.half_rightPower] at rhs
        rw [Climb.chain, if_pos taken, dif_pos le]
        refine .behind rfl ((rhs _ (by omega)).bind fun p _ _ => ?_)
        dsimp only [Parsed.view]
        by_cases lt : max height p.height < depthLimit
        · rw [dif_pos lt, dif_pos lt]
          exact further op literal (p.expr, p.height) lt
        · rw [dif_neg lt, dif_neg lt]
          exact .refuse rfl
      · have looser : ¬power / 2 ≤ op.level := mt Operator.le_leftPower_iff.2 taken
        rw [Climb.chain, if_neg taken, dif_neg looser]
        exact .pure rfl
    next other =>
      have stops : Stops (power / 2) ts := fun op l o rest eq =>
        absurd eq (ne_cons_of_head? (other op l o) rest)
      rw [chain_of_stops stops]
      exact .pure rfl

theorem agrees_conditional {nesting stop : Nat} {ts : List Token} {depths : List Nat}
    (enough : (Call.conditional nesting ts).need ≤ room + 1) :
    Agrees Parsed.view (body calls .conditional) ⟨ts, stop, nesting, depths⟩
      (Climb.conditional nesting ts) := by
  have inner (ts : List Token) (depths : List Nat) :
      Agrees Parsed.view (calls (.within 0)) ⟨ts, stop, nesting, depths⟩ (within nesting 0 ts) :=
    ih (.within 0) nesting ts stop depths (Nat.le_of_succ_le_succ enough)
  refine .behind rfl ?_
  split
  next literal offset head =>
    obtain ⟨rest, rfl⟩ := List.head?_eq_some_iff.1 head
    rw [Climb.conditional]
    refine .behind rfl ?_
    refine (inner rest _).bind fun c _ _ => ?_
    refine (agrees_expect .thenWord .thenWord _).bind fun rest₁ _ _ => ?_
    refine (inner rest₁ _).bind fun t _ _ => ?_
    refine (agrees_expect .elseWord .elseWord _).bind fun rest₂ _ _ => ?_
    refine (inner rest₂ _).bind fun e _ _ => ?_
    refine (agrees_grow _ _ rest _).bind fun height _ _ => ?_
    exact .pure rfl
  next other =>
    rw [conditional_eq_within fun l o => ne_cons_of_head? (other l o)]
    exact inner ts depths

theorem agrees_within {power nesting stop : Nat} {ts : List Token} {depths : List Nat}
    (enough : (Call.within nesting (power / 2) ts).need ≤ room + 1) :
    Agrees Parsed.view (body calls (.within power)) ⟨ts, stop, nesting, depths⟩
      (within nesting (power / 2) ts) := by
  rw [Call.need] at enough
  have first := ih .factor nesting ts stop depths (by rw [Request.call, Call.need]; omega)
  have operators (lhs : Parsed) (depths : List Nat) :
      Agrees Parsed.view (chain calls power lhs.expr lhs.height) ⟨lhs.rest, stop, nesting, depths⟩
        (Climb.chain nesting (power / 2) lhs.expr lhs.height lhs.rest) :=
    agrees_chain ih (by omega)
  rw [within]
  exact first.bind fun lhs _ _ => operators lhs _

theorem agrees_factor {nesting stop : Nat} {ts : List Token} {depths : List Nat}
    (enough : (Call.factor nesting ts).need ≤ room + 1) :
    Agrees Parsed.view (body calls .factor) ⟨ts, stop, nesting, depths⟩
      (Climb.factor nesting ts) := by
  rw [Call.need] at enough
  refine .behind rfl ?_
  split
  next n literal offset head =>
    obtain ⟨rest, rfl⟩ := List.head?_eq_some_iff.1 head
    rw [Climb.factor]
    exact .pure rfl
  next literal offset head =>
    obtain ⟨rest, rfl⟩ := List.head?_eq_some_iff.1 head
    rw [Climb.factor]
    split
    next lt =>
      have operand (depths : List Nat) := ih .factor (nesting + 1) rest stop depths
        (by rw [Request.call, Call.need]; omega)
      refine .enclosed lt operand fun x _ _ => ?_
      refine (agrees_grow _ _ rest _).bind fun n _ _ => ?_
      exact .pure rfl
    next deep => exact .too_deep deep
  next literal offset head =>
    obtain ⟨rest, rfl⟩ := List.head?_eq_some_iff.1 head
    rw [Climb.factor]
    split
    next lt =>
      have inner (depths : List Nat) := ih .conditional (nesting + 1) rest stop depths
        (by rw [Request.call, Call.need]; omega)
      refine .enclosed lt inner fun x _ _ => ?_
      refine (agrees_expect .rightParen .closeParen _).bind fun rest _ _ => ?_
      exact .pure rfl
    next deep => exact .too_deep deep
  next number bang paren =>
    rw [factor_eq_error_of_ne]
    · exact .refuse rfl
    · exact fun n l o => ne_cons_of_head? (number n l o)
    · exact fun l o => ne_cons_of_head? (bang l o)
    · exact fun l o => ne_cons_of_head? (paren l o)

end step

theorem Request.agrees {room : Nat} (request : Request) (nesting : Nat) (ts : List Token)
    (stop : Nat) (depths : List Nat) (enough : (request.call nesting ts).need ≤ room) :
    Agrees Parsed.view (request.read room) ⟨ts, stop, nesting, depths⟩
      (request.call nesting ts).result := by
  induction room generalizing request nesting ts stop depths with
  | zero =>
    have := Call.body_descends.need_pos (request.call nesting ts)
    omega
  | succ room ih =>
    cases request with
    | conditional => exact agrees_conditional ih enough
    | within power => exact agrees_within ih enough
    | factor => exact agrees_factor ih enough

def whole (room : Nat) : Reading Expr := do
  let e ← Request.conditional.read room
  let found ← next
  if found.isNone then return e.1 else refuse .endOfInput found

end Counted

def Reader.ofTokens (ts : List Token) : Reader :=
  ⟨ts, endOffset ts, 0, []⟩

theorem agrees_whole (ts : List Token) :
    Agrees (fun e => (e, [])) (Counted.whole (9 * (depthLimit + 1))) (.ofTokens ts) (whole ts) := by
  have enough : (Call.conditional 0 ts).need ≤ 9 * (depthLimit + 1) := by
    rw [Call.need]
    omega
  have first : Agrees Parsed.view (Counted.Request.conditional.read (9 * (depthLimit + 1)))
      (.ofTokens ts) (conditional 0 ts) :=
    Counted.Request.agrees .conditional 0 ts _ _ enough
  rw [Counted.whole, whole]
  refine first.bind fun p _ _ => .behind rfl ?_
  dsimp only [Parsed.view]
  cases p.rest with
  | nil => exact .pure rfl
  | cons t rest => exact .refuse rfl

end Climb

theorem ofTokens_counted (ts : List Token) :
    ∃ r, (Climb.Counted.whole (9 * (depthLimit + 1))).run.run (.ofTokens ts) =
      some (Expr.ofTokens ts, r) := by
  obtain ⟨y, r, run, -, -, same⟩ := Climb.agrees_whole ts
  refine ⟨r, run.trans ?_⟩
  rcases same.cases with ⟨e, a, eq, rfl, value, -⟩ | ⟨u, x, eq, rfl, refused⟩
  · obtain ⟨rfl, -⟩ := Prod.mk.inj value
    rw [Expr.ofTokens_eq_ok.2 eq]
  · rw [Expr.ofTokens_eq_error.2 ⟨u, eq, rfl⟩, Climb.locate_eq_refusal, refused]
    rfl

/-- Whatever a reader is asked for, it comes to an end if there is room for nine requests at once for
each opening that is still allowed, and for nine more. The end is that of the function without a
counter. If it succeeds, the height is that of the tree and between 1 and 256, the depth is what it
was, and tokens have been taken, from the front. And whether it succeeds or not, no depth on the way
is above 256 or below the first one. The trees and the errors of lists of tokens are those that such
a reader finds. -/
theorem calls_keep_count :
    (∀ (request : Climb.Counted.Request) (r : Climb.Reader) (room : Nat),
      r.depth ≤ 256 → 9 * (256 - r.depth) + 9 ≤ room →
      ∃ outcome r', (request.read room).run.run r = some (outcome, r') ∧
        Matches (fun p a => a = (p.expr, p.height) ∧ r'.tokens = p.rest)
          (fun u x => x = Climb.refusal r.stop u.expected u.remaining.head?)
          (request.call r.depth r.tokens).result outcome ∧
        (∀ e height, outcome = .ok (e, height) →
          height = e.height ∧ 1 ≤ height ∧ height ≤ 256 ∧ r'.depth = r.depth ∧
            ∃ taken, taken ≠ [] ∧ r.tokens = taken ++ r'.tokens) ∧
        ∃ passed, r'.depths = passed ++ r.depths ∧ r'.depth = passed.headD r.depth ∧
          ∀ d ∈ r.depth :: passed, r.depth ≤ d ∧ d ≤ 256) ∧
    ∀ ts, ∃ r, (Climb.Counted.whole (9 * (256 + 1))).run.run (.ofTokens ts) =
      some (Expr.ofTokens ts, r) := by
  refine ⟨fun request r room h enough => ?_, ofTokens_counted⟩
  have need_le := request.need_call_le r.depth r.tokens
  obtain ⟨outcome, r', run, -, ⟨passed, trail, last, inside⟩, same⟩ :=
    request.agrees r.depth r.tokens r.stop r.depths (Nat.le_trans need_le enough)
  have inside' : ∀ d ∈ r.depth :: passed, r.depth ≤ d ∧ d ≤ 256 :=
    List.forall_mem_cons.2 ⟨⟨Nat.le_refl _, h⟩, inside⟩
  rcases same.cases with ⟨p, a, plain, rfl, value, depth⟩ | ⟨u, x, plain, rfl, refused⟩
  · obtain ⟨rfl, tokens⟩ := Prod.mk.inj value
    obtain ⟨phrase, taken, eq, reads, -⟩ := Climb.Counted.Request.takes plain
    refine ⟨_, r', run, ?_, ?_, passed, trail, last, inside'⟩
    · rw [plain]
      exact ⟨rfl, tokens.symm⟩
    · rintro e height ⟨⟩
      have pos : 1 ≤ p.height := reads.height_eq ▸ p.expr.height_pos
      exact ⟨reads.height_eq, pos, reads.height_le, depth, taken, reads.derives.ne_nil, tokens ▸ eq⟩
  · refine ⟨_, r', run, ?_, ?_, passed, trail, last, inside'⟩
    · rw [plain]
      exact refused
    · rintro e height ⟨⟩

/-- Behind 254 openings `(!1) + 2` can still be read; behind 255 its `!` is refused, while the `(` is
in force. -/
theorem calls_keep_count_at_limit :
    let within : Climb.Counted.Request := .within 0
    let ts : List Token := [⟨.leftParen, "(", 0⟩, ⟨.bang, "!", 1⟩, ⟨.number 1, "1", 2⟩,
      ⟨.rightParen, ")", 3⟩, ⟨.binary .add, "+", 5⟩, ⟨.number 2, "2", 7⟩, ⟨.rightParen, ")", 8⟩]
    let e : Expr := .binary .add "+" (.not "!" (.number 1)) (.number 2)
    (254 ≤ 256 ∧ 9 * (256 - 254) + 9 ≤ 27 ∧
      ∃ r', (within.read 27).run.run ⟨ts, 9, 254, []⟩ = some (.ok (e, 3), r') ∧
        3 = e.height ∧ r'.depth = 254 ∧ r'.tokens = [⟨.rightParen, ")", 8⟩] ∧
        ∃ passed, r'.depths = passed ++ [] ∧ r'.depth = passed.headD 254 ∧
          ∀ d ∈ 254 :: passed, 254 ≤ d ∧ d ≤ 256) ∧
    (255 ≤ 256 ∧ 9 * (256 - 255) + 9 ≤ 18 ∧
      ∃ r', (within.read 18).run.run ⟨ts, 9, 255, []⟩ =
          some (.error ⟨.shallowerNesting, some ⟨.bang, "!", 1⟩, ⟨1, 1⟩⟩, r') ∧
        ∃ passed, r'.depths = passed ++ [] ∧ r'.depth = passed.headD 255 ∧
          ∀ d ∈ 255 :: passed, 255 ≤ d ∧ d ≤ 256) := by
  intro within ts e
  constructor
  · have plain : (within.call 254 ts).result = .ok ⟨e, 3, [⟨.rightParen, ")", 8⟩]⟩ := by cbv
    obtain ⟨outcome, r', run, same, kept, trail⟩ :=
      calls_keep_count.1 within ⟨ts, 9, 254, []⟩ 27 (by decide) (by decide)
    obtain ⟨_, rfl, rfl, tokens⟩ := same.of_ok plain
    obtain ⟨height, -, -, depth, -⟩ := kept e 3 rfl
    exact ⟨by decide, by decide, r', run, height, depth, tokens, trail⟩
  · have plain : (within.call 255 ts).result = .error ⟨.shallowerNesting,
        [⟨.bang, "!", 1⟩, ⟨.number 1, "1", 2⟩, ⟨.rightParen, ")", 3⟩, ⟨.binary .add, "+", 5⟩,
          ⟨.number 2, "2", 7⟩, ⟨.rightParen, ")", 8⟩]⟩ := by cbv
    obtain ⟨outcome, r', run, same, -, trail⟩ :=
      calls_keep_count.1 within ⟨ts, 9, 255, []⟩ 18 (by decide) (by decide)
    obtain ⟨_, rfl, rfl⟩ := same.of_error plain
    exact ⟨by decide, by decide, r', run, trail⟩

end CondCalc
