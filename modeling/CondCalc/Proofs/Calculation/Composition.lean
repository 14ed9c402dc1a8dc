import CondCalc.Proofs.Calculation.Stages
import CondCalc.Proofs.Lexis.Joining

/-! Texts put together from texts in parentheses. In parentheses every text is a factor, so it keeps
its own tree whatever stands around it. A node over such texts is one level higher than they are,
and one opening wider for the parentheses, or two under `!`. -/
namespace CondCalc

namespace Derives

variable {budget : Nat} {phrase : Phrase} {ts : List Token} {e : Expr}

theorem shift (h : Derives budget phrase ts e) (n : Nat) :
    Derives budget phrase (ts.map (Token.shift n)) e := by
  induction h with
  | number budget k literal offset => exact .number budget k literal _
  | not literal offset _ ih => exact .not literal _ ih
  | paren l₁ l₂ o₁ o₂ _ ih =>
    rw [List.map_cons, List.map_append]
    exact .paren l₁ l₂ _ _ ih
  | tighter _ ih => exact .tighter ih
  | binary op literal offset eq _ _ ihl ihr =>
    rw [List.map_append, List.map_cons]
    exact .binary op literal _ eq ihl ihr
  | plain _ ih => exact .plain ih
  | cond l₁ l₂ l₃ o₁ o₂ o₃ _ _ _ ihc iht ihe =>
    simp only [List.map_cons, List.map_append]
    exact .cond l₁ l₂ l₃ _ _ _ ihc iht ihe

theorem inParens {budget' l offset : Nat} {text : String} (h : Derives budget .conditional ts e)
    (room : budget + 1 ≤ budget') (le : l ≤ 6) :
    Derives budget' (.level l) (parenTokens offset text ts) e :=
  ((Derives.paren "(" ")" _ _ (h.shift _)).loosen le).mono room

end Derives

/-- The text is read as the tree, and both limits leave room around it: for a node on top, and for
an operator and a parenthesis in front. -/
def LeavesRoom (text : String) (e : Expr) : Prop :=
  ∃ ts, tokenize text = .ok ts ∧ Expr.ofTokens ts = .ok e ∧ e.height ≤ 255 ∧
    Derives 254 .conditional ts e

theorem leavesRoom_iff {text : String} {e : Expr} : LeavesRoom text e ↔
    ∃ ts height, tokenize text = .ok ts ∧ Climb.conditional 2 ts = .ok ⟨e, height, []⟩ ∧
      height ≤ 255 := by
  constructor
  · rintro ⟨ts, tokens, -, low, derives⟩
    have reads : Climb.Reads .conditional 2 ts e e.height := ⟨derives, rfl, Nat.le_succ_of_le low⟩
    have read := reads.conditional_eq (stops_nil 0)
    rw [List.append_nil] at read
    exact ⟨ts, e.height, tokens, read, low⟩
  · rintro ⟨ts, height, tokens, read, low⟩
    obtain ⟨front, eq, reads, -⟩ := Climb.conditional_takes read
    rw [List.append_nil] at eq
    subst eq
    obtain ⟨derives, rfl, le⟩ : Climb.Reads .conditional 2 ts e height := reads
    have whole : Climb.Reads .conditional 0 ts e e.height := ⟨derives.mono (by decide), rfl, le⟩
    exact ⟨ts, tokens, whole.ofTokens_eq, low, derives⟩

/-- The text is read as the tree. So its value is that of the tree, or it fails as the tree does,
in every mode that takes its tokens. -/
def Means (text : String) (e : Expr) : Prop :=
  ∃ ts, tokenize text = .ok ts ∧ Expr.ofTokens ts = .ok e ∧
    ∀ mode, checkMode mode ts = .ok () → (calculate text mode).map Outcome.value = valueOf e

theorem calculate_map_value {text : String} {ts : List Token} {e : Expr} {mode : Option Mode}
    (tokens : tokenize text = .ok ts) (read : Expr.ofTokens ts = .ok e)
    (accepted : checkMode mode ts = .ok ()) :
    (calculate text mode).map Outcome.value = valueOf e := by
  simp only [calculate, tokensOf, treeOf, tokens, read, Except.mapError, ok_bind, accepted]
  cases valueOf e <;> rfl

theorem means_of_derives {text : String} {cs : List Char} {ts : List Token} {e : Expr}
    (tiles : Tiles 0 cs ts) (eq : text.toList = cs) (derives : Derives 256 .conditional ts e)
    (low : e.height ≤ 256) : Means text e := by
  have tokens : tokenize text = .ok ts := Cursor.tokens_of_tiles (eq ▸ tiles)
  have reads : Climb.Reads .conditional 0 ts e e.height := ⟨derives, rfl, low⟩
  exact ⟨ts, tokens, reads.ofTokens_eq, fun _ => calculate_map_value tokens reads.ofTokens_eq⟩

section compose

variable {s₁ s₂ s₃ : String} {e₁ e₂ e₃ : Expr}

theorem head_inParens (text : String) (rest : List Char) :
    ((inParens text).toList ++ rest).head? ≠ some '=' := by
  simp [inParens]

theorem tiles_nil (offset : Nat) : Tiles offset [] [] :=
  .gap (by simp [Blank])

theorem means_binary (h₁ : LeavesRoom s₁ e₁) (h₂ : LeavesRoom s₂ e₂) (op : Operator) :
    Means (inParens s₁ ++ op.spelling ++ inParens s₂) (.binary op op.spelling e₁ e₂) := by
  obtain ⟨ts₁, tokens₁, -, low₁, d₁⟩ := h₁
  obtain ⟨ts₂, tokens₂, -, low₂, d₂⟩ := h₂
  have le := op.level_lt_six
  -- tiled from the left, so that each piece starts where the one before it stops
  have tiles : Tiles 0 _ _ := (tiles_of_tokenize tokens₁).inParens <|
    .spelled (k := .binary op) rfl (fun _ => head_inParens s₂ []) <|
    (tiles_of_tokenize tokens₂).inParens (tiles_nil _)
  refine means_of_derives tiles (by simp) (.plain ?_) ?_
  · rw [List.append_nil]
    refine (Derives.binary op _ _ rfl ?_ ?_).loosen (Nat.zero_le _)
    · exact d₁.inParens (Nat.le_succ 255) (Nat.le_of_lt le)
    · exact d₂.inParens (Nat.le_succ 255) le
  · rw [Expr.height]
    omega

theorem means_not (h₁ : LeavesRoom s₁ e₁) : Means ("!" ++ inParens s₁) (.not "!" e₁) := by
  obtain ⟨ts₁, tokens₁, -, low₁, d₁⟩ := h₁
  have tiles : Tiles 0 _ _ := .spelled (k := .bang) rfl (fun _ => head_inParens s₁ []) <|
    (tiles_of_tokenize tokens₁).inParens (tiles_nil _)
  refine means_of_derives tiles (by simp) (.plain ?_) (Nat.succ_le_succ low₁)
  rw [List.append_nil]
  exact (Derives.not "!" 0 (d₁.inParens (Nat.le_refl 255) (Nat.le_refl 6))).loosen (Nat.zero_le 6)

theorem means_cond (h₁ : LeavesRoom s₁ e₁) (h₂ : LeavesRoom s₂ e₂) (h₃ : LeavesRoom s₃ e₃) :
    Means ("if " ++ inParens s₁ ++ " then " ++ inParens s₂ ++ " else " ++ inParens s₃)
      (.cond e₁ e₂ e₃) := by
  obtain ⟨ts₁, tokens₁, -, low₁, d₁⟩ := h₁
  obtain ⟨ts₂, tokens₂, -, low₂, d₂⟩ := h₂
  obtain ⟨ts₃, tokens₃, -, low₃, d₃⟩ := h₃
  have space : Blank [' '] := by simp [Blank]
  have tiles : Tiles 0 _ _ :=
    .spelled (k := .ifWord) rfl (by simp [Kind.takesEqual]) <| .behind_gap space <|
    (tiles_of_tokenize tokens₁).inParens <| .behind_gap space <|
    .spelled (k := .thenWord) rfl (by simp [Kind.takesEqual]) <| .behind_gap space <|
    (tiles_of_tokenize tokens₂).inParens <| .behind_gap space <|
    .spelled (k := .elseWord) rfl (by simp [Kind.takesEqual]) <| .behind_gap space <|
    (tiles_of_tokenize tokens₃).inParens (tiles_nil _)
  refine means_of_derives tiles (by simp) ?_ ?_
  · rw [List.append_nil]
    refine .cond _ _ _ _ _ _ ?_ ?_ ?_
    · exact d₁.inParens (Nat.le_succ 255) (Nat.zero_le 6)
    · exact d₂.inParens (Nat.le_succ 255) (Nat.zero_le 6)
    · exact d₃.inParens (Nat.le_succ 255) (Nat.zero_le 6)
  · rw [Expr.height]
    omega

end compose

/-- Texts that leave room compose, whatever operators and conditionals they consist of. In
parentheses on both sides of an operator, under `!` and as the parts of a conditional they mean that
node over their own trees. -/
theorem parenthesised_texts_compose (s₁ s₂ s₃ : String) (e₁ e₂ e₃ : Expr)
    (h₁ : LeavesRoom s₁ e₁) (h₂ : LeavesRoom s₂ e₂) (h₃ : LeavesRoom s₃ e₃) :
    (∀ op : Operator,
      Means (inParens s₁ ++ op.spelling ++ inParens s₂) (.binary op op.spelling e₁ e₂)) ∧
    Means ("!" ++ inParens s₁) (.not "!" e₁) ∧
    Means ("if " ++ inParens s₁ ++ " then " ++ inParens s₂ ++ " else " ++ inParens s₃)
      (.cond e₁ e₂ e₃) :=
  ⟨means_binary h₁ h₂, means_not h₁, means_cond h₁ h₂ h₃⟩

theorem parenthesised_texts_compose_loose :
    let e₁ : Expr := .cond (.number 1) (.number 2) (.binary .add "+" (.number 3) (.number 4))
    let e₂ : Expr := .binary .or "||" (.number 5) (.number 6)
    let e₃ : Expr := .not "!" (.binary .eq "==" (.number 7) (.number 8))
    (LeavesRoom "if1then2else3+4" e₁ ∧ LeavesRoom "\t5 || 6 " e₂ ∧ LeavesRoom "!(7==8)" e₃) ∧
    (∀ op : Operator, Means (inParens "if1then2else3+4" ++ op.spelling ++ inParens "\t5 || 6 ")
      (.binary op op.spelling e₁ e₂)) ∧
    Means ("!" ++ inParens "if1then2else3+4") (.not "!" e₁) ∧
    Means ("if " ++ inParens "if1then2else3+4" ++ " then " ++ inParens "\t5 || 6 " ++ " else " ++
      inParens "!(7==8)") (.cond e₁ e₂ e₃) := by
  intro e₁ e₂ e₃
  have h₁ : LeavesRoom "if1then2else3+4" e₁ := leavesRoom_iff.2
    ⟨[⟨.ifWord, "if", 0⟩, ⟨.number 1, "1", 2⟩, ⟨.thenWord, "then", 3⟩, ⟨.number 2, "2", 7⟩,
      ⟨.elseWord, "else", 8⟩, ⟨.number 3, "3", 12⟩, ⟨.binary .add, "+", 13⟩, ⟨.number 4, "4", 14⟩],
      3, by decide +kernel, by cbv, by decide⟩
  have h₂ : LeavesRoom "\t5 || 6 " e₂ := leavesRoom_iff.2
    ⟨[⟨.number 5, "5", 1⟩, ⟨.binary .or, "||", 3⟩, ⟨.number 6, "6", 6⟩], 2, by decide +kernel,
      by cbv, by decide⟩
  have h₃ : LeavesRoom "!(7==8)" e₃ := leavesRoom_iff.2
    ⟨[⟨.bang, "!", 0⟩, ⟨.leftParen, "(", 1⟩, ⟨.number 7, "7", 2⟩, ⟨.binary .eq, "==", 3⟩,
      ⟨.number 8, "8", 5⟩, ⟨.rightParen, ")", 6⟩], 3, by decide +kernel, by cbv, by decide⟩
  exact ⟨⟨h₁, h₂, h₃⟩, parenthesised_texts_compose _ _ _ e₁ e₂ e₃ h₁ h₂ h₃⟩

end CondCalc
