import CondCalc.Proofs.Syntax.Blame
import CondCalc.Proofs.Syntax.Refusal

/-! What more tokens can do. A front of a list that has a tree is read to its end: whatever is
missing is missing there, and no limit is met, for all that is read of a tree is no higher than
the tree. So a list that is refused at one of its tokens stays refused, whatever follows it. -/
namespace CondCalc

theorem prefix_append_cons {α : Type} {ts xs ys : List α} {y : α} (h : ts <+: xs ++ y :: ys) :
    ts <+: xs ∨ ∃ us, us <+: ys ∧ ts = xs ++ y :: us := by
  rcases List.prefix_or_prefix_of_prefix h (List.prefix_append xs (y :: ys)) with inside | ⟨vs, rfl⟩
  · exact .inl inside
  · have rest : vs <+: y :: ys := (List.prefix_append_right_inj xs).1 h
    rcases List.prefix_cons_iff.1 rest with rfl | ⟨us, rfl, front⟩
    · exact .inl (by simp)
    · exact .inr ⟨us, front, rfl⟩

namespace Climb

variable {budget nesting bound : Nat} {phrase : Phrase} {e : Expr}

/-- All tokens are read, and what they make up is at most `bound` high, or some are missing. -/
def ReadsOut (bound : Nat) : Except Unexpected Parsed → Prop :=
  Ends (fun p => p.rest = [] ∧ p.height ≤ bound) fun u => u.remaining = []

theorem ReadsOut.mono {bound' : Nat} {r : Except Unexpected Parsed} (h : ReadsOut bound r)
    (le : bound ≤ bound') : ReadsOut bound' r :=
  Ends.mono h (fun _ read => ⟨read.1, Nat.le_trans read.2 le⟩) fun _ => id

theorem ReadsOut.expect {bound' : Nat} {r : Except Unexpected Parsed} {kind : Kind}
    {x : Expectation} {f : Parsed → List Token → Except Unexpected Parsed} (h : ReadsOut bound r) :
    ReadsOut bound' (r >>= fun p => Climb.expect kind x p.rest >>= f p) := by
  refine h.bind ?_
  rintro p ⟨read, -⟩
  rw [read]
  rfl

theorem ReadsOut.within {ts : List Token} (h : ReadsOut bound (factor nesting ts)) (least : Nat) :
    ReadsOut bound (Climb.within nesting least ts) := by
  rw [Climb.within]
  refine h.bind ?_
  rintro p ⟨read, low⟩
  rw [read, chain_of_stops (stops_nil least)]
  exact ⟨rfl, low⟩

theorem readsOut_factor_nil : ReadsOut bound (factor nesting []) := by
  rw [factor_eq_error_of_ne] <;> simp [ReadsOut, Ends]

theorem readsOut_conditional_nil : ReadsOut bound (conditional nesting []) := by
  rw [conditional_eq_within (by simp)]
  exact readsOut_factor_nil.within 0

/-- Every front of the tokens is read to its end wherever they stand as such a phrase. -/
def FrontsRead (budget : Nat) (vs : List Token) (e : Expr) : Phrase → Prop
  | .conditional => ∀ nesting ts, ts <+: vs → Fits budget nesting e →
    ReadsOut e.height (conditional nesting ts)
  | .level l => ∀ nesting least ts, least ≤ l → ts <+: vs → Fits budget nesting e →
    ReadsOut e.height (within nesting least ts)

namespace FrontsRead

theorem factor {ts vs : List Token} (h : FrontsRead budget vs e .factor) (front : ts <+: vs)
    (fits : Fits budget nesting e) : ReadsOut e.height (factor nesting ts) := by
  rw [← within_six]
  exact h nesting 6 ts (Nat.le_refl 6) front fits

theorem of_factor {vs : List Token} (h : ∀ nesting ts, ts <+: vs → Fits budget nesting e →
    ReadsOut e.height (Climb.factor nesting ts)) : FrontsRead budget vs e .factor :=
  fun nesting least ts _ front fits => (h nesting ts front fits).within least

end FrontsRead

/-- A front that ends inside a part of the tree is read to its end by the call that reads the part;
the parts before it are read back whole. -/
theorem frontsRead_of_derives {vs : List Token} (h : Derives budget phrase vs e) :
    FrontsRead budget vs e phrase := by
  induction h with
  | number budget n literal offset =>
    apply FrontsRead.of_factor
    intro nesting ts front _
    rcases List.prefix_cons_iff.1 front with rfl | ⟨us, rfl, nil⟩
    · exact readsOut_factor_nil
    · rw [List.prefix_nil.1 nil, Climb.factor]
      exact ⟨rfl, Nat.le_refl 1⟩
  | @not budget vs e literal offset _ ih =>
    apply FrontsRead.of_factor
    rintro nesting ts front ⟨room, low⟩
    rcases List.prefix_cons_iff.1 front with rfl | ⟨us, rfl, inside⟩
    · exact readsOut_factor_nil
    have lt : nesting < depthLimit := by omega
    rw [Expr.height] at low ⊢
    rw [factor]
    simp only [lt, dite_true]
    refine (ih.factor inside ⟨by omega, by omega⟩).bind ?_
    rintro p ⟨read, p_low⟩
    rw [grow_eq_ok_iff.2 ⟨by omega, rfl⟩]
    exact ⟨read, Nat.succ_le_succ p_low⟩
  | @paren budget vs e l₁ l₂ o₁ o₂ d ih =>
    apply FrontsRead.of_factor
    rintro nesting ts front ⟨room, low⟩
    rcases List.prefix_cons_iff.1 front with rfl | ⟨us, rfl, inside⟩
    · exact readsOut_factor_nil
    have lt : nesting < depthLimit := by omega
    have fits : Fits budget (nesting + 1) e := ⟨by omega, low⟩
    rw [factor]
    simp only [lt, dite_true]
    rcases prefix_append_cons inside with inside | ⟨us, nil, rfl⟩
    · exact (ih (nesting + 1) us inside fits).expect
    · rw [List.prefix_nil.1 nil,
        (readBack_of_derives d (nesting + 1) _ (stops_cons rfl)).eq fits]
      exact ⟨rfl, Nat.le_refl _⟩
  | tighter _ ih =>
    intro nesting least ts le front fits
    exact ih nesting least ts (by omega) front fits
  | @binary budget _ ls rs lhs rhs op literal offset eq dl _ ihl ihr =>
    subst eq
    rintro nesting least ts le front ⟨room, low⟩
    rw [Expr.height] at low ⊢
    have fits : Fits budget nesting lhs := ⟨room, by omega⟩
    rcases prefix_append_cons front with inside | ⟨us, inside, rfl⟩
    · exact (ihl nesting least ts le inside fits).mono (by omega)
    -- the left operand is there in full, and what there is of the right one is the rest
    rw [(readBack_of_derives dl nesting least _ le (stops_binary.2 (Nat.lt_succ_self _))).eq fits,
      chain]
    simp only [le, dite_true]
    refine (ihr nesting (op.level + 1) us (Nat.le_refl _) inside ⟨room, by omega⟩).bind ?_
    rintro p ⟨read, p_low⟩
    have lt : max lhs.height p.height < depthLimit := by omega
    simp only [lt, dite_true, read, chain_of_stops (stops_nil least)]
    exact ⟨rfl, by simp only; omega⟩
  | @plain budget vs e d ih =>
    intro nesting ts front fits
    rw [conditional_eq_within]
    · exact ih nesting 0 ts (Nat.le_refl 0) front fits
    · rintro l o rest rfl
      obtain ⟨us, rfl⟩ := front
      exact d.ne_if_cons l o (rest ++ us) rfl
  | @cond budget cs bs es c b e l₁ l₂ l₃ o₁ o₂ o₃ dc db _ ihc ihb ihe =>
    rintro nesting ts front ⟨room, low⟩
    rw [Expr.height] at low ⊢
    have fitsC : Fits budget nesting c := ⟨room, by omega⟩
    have fitsB : Fits budget nesting b := ⟨room, by omega⟩
    rcases List.prefix_cons_iff.1 front with rfl | ⟨us, rfl, inside⟩
    · exact readsOut_conditional_nil
    rw [conditional]
    rcases prefix_append_cons inside with inC | ⟨vs, afterThen, rfl⟩
    · exact (ihc nesting 0 us (Nat.le_refl 0) inC fitsC).expect
    rw [((readBack_of_derives dc).within (stops_cons rfl)).eq fitsC, ok_bind,
      expect_eq_ok_iff.2 ⟨l₂, o₂, rfl⟩, ok_bind]
    rcases prefix_append_cons afterThen with inB | ⟨ws, afterElse, rfl⟩
    · exact (ihb nesting 0 vs (Nat.le_refl 0) inB fitsB).expect
    rw [((readBack_of_derives db).within (stops_cons rfl)).eq fitsB, ok_bind,
      expect_eq_ok_iff.2 ⟨l₃, o₃, rfl⟩, ok_bind]
    refine (ihe nesting 0 ws (Nat.le_refl 0) afterElse ⟨room, by omega⟩).bind ?_
    rintro p ⟨read, p_low⟩
    have lt : max (max c.height b.height) p.height < depthLimit := by omega
    rw [grow_eq_ok_iff.2 ⟨lt, rfl⟩]
    exact ⟨read, by simp only; omega⟩

theorem remaining_nil_of_front {ts us : List Token} {u : Unexpected}
    (h : whole (ts ++ us) = .ok e) (refused : whole ts = .error u) : u.remaining = [] := by
  have reads := reads_of_ofTokens (Expr.ofTokens_eq_ok.2 h)
  have read : ReadsOut e.height (conditional 0 ts) :=
    frontsRead_of_derives reads.derives 0 ts (List.prefix_append ts us) reads.fits
  rcases whole_eq_error_iff.1 refused with hc | ⟨p, hp, ne, rfl⟩
  · rw [hc] at read
    exact read
  · rw [hp] at read
    exact read.1

theorem whole_error_append {front rest : List Token} {t : Token} {x : Expectation}
    (h : whole (front ++ t :: rest) = .error ⟨x, t :: rest⟩) (us : List Token) :
    ∃ v, whole (front ++ t :: (rest ++ us)) = .error v ∧
      (x ≠ .shallowerNesting → v = ⟨x, t :: (rest ++ us)⟩) := by
  cases hw : whole (front ++ t :: (rest ++ us)) with
  | ok e =>
    have eq : front ++ t :: (rest ++ us) = front ++ t :: rest ++ us := by simp
    rw [eq] at hw
    cases remaining_nil_of_front hw h
  | error v =>
    refine ⟨v, rfl, fun other => ?_⟩
    rw [whole_final h other] at hw
    exact (Except.error.inj hw).symm

end Climb

/-- A syntax error at a token is final. Whatever follows there is an error, and the same one unless
it is about the nesting: more tokens may cross a limit at another token first. -/
theorem syntax_error_final (ts : List Token) (x : SyntaxError) (t : Token)
    (h : Expr.ofTokens ts = .error x) (found : x.found = some t) (us : List Token) :
    ∃ y, Expr.ofTokens (ts ++ us) = .error y ∧ (x.expected ≠ .shallowerNesting → y = x) := by
  obtain ⟨⟨expected, remaining⟩, hu, rfl⟩ := Expr.ofTokens_eq_error.1 h
  obtain ⟨front, rfl⟩ := Climb.whole_remaining_suffix hu
  cases remaining with
  | nil => cases found
  | cons t' rest =>
    obtain ⟨v, hv, same⟩ := Climb.whole_error_append hu us
    refine ⟨v.locate _, Expr.ofTokens_eq_error.2 ⟨v, ?_, rfl⟩, fun other => ?_⟩
    · rw [List.append_assoc, List.cons_append]
      exact hv
    · rw [same other]
      rfl

theorem syntax_error_final_either :
    let thenWord : Token := ⟨.thenWord, "then", 4⟩
    let ts : List Token := [⟨.leftParen, "(", 0⟩, ⟨.number 1, "1", 2⟩, thenWord]
    let x : SyntaxError := ⟨.closeParen, some thenWord, ⟨4, 4⟩⟩
    let bang : Token := ⟨.bang, "!", 0⟩
    let ts' : List Token := List.replicate 256 bang ++ [bang]
    let x' : SyntaxError := ⟨.shallowerNesting, some bang, ⟨0, 1⟩⟩
    ((Expr.ofTokens ts = .error x ∧ x.found = some thenWord) ∧ ∀ us, ∃ y,
      Expr.ofTokens (ts ++ us) = .error y ∧ (x.expected ≠ .shallowerNesting → y = x)) ∧
    (Expr.ofTokens ts' = .error x' ∧ x'.found = some bang) ∧ ∀ us, ∃ y,
      Expr.ofTokens (ts' ++ us) = .error y ∧ (x'.expected ≠ .shallowerNesting → y = x') := by
  intro thenWord ts x bang ts' x'
  have unclosed : Climb.whole ts = .error ⟨.closeParen, [thenWord]⟩ := by
    cbv
  have h : Expr.ofTokens ts = .error x := Expr.ofTokens_eq_error.2 ⟨_, unclosed, rfl⟩
  have h' : Expr.ofTokens ts' = .error x' :=
    Expr.ofTokens_eq_error.2 ⟨_, Climb.whole_bangs "!" 0 [], rfl⟩
  exact ⟨⟨⟨h, rfl⟩, syntax_error_final ts x thenWord h rfl⟩,
    ⟨h', rfl⟩, syntax_error_final ts' x' bang h' rfl⟩

end CondCalc
