import CondCalc.Proofs.Outcome

/-! Recursion on a stack of limited height. A recursive computation is given by what one call does,
with the calls inside it left open; on a limited stack it gives up where one more call would have to
be active. If the calls inside a call always need less room than the call itself, then the room that
a call needs is enough for it, and it ends as it does on a stack without limit. -/
namespace CondCalc

inductive Halt (ε : Type) where
  | exhausted
  | failed (e : ε)
deriving DecidableEq

def Halt.map {ε ε' : Type} (f : ε → ε') : Halt ε → Halt ε'
  | exhausted => exhausted
  | failed e => failed (f e)

/-- The same end on a limited stack: it is not the stack that was too small. -/
def lift {ε α : Type} (x : Except ε α) : Except (Halt ε) α :=
  x.mapError .failed

section lift

variable {ε α β : Type}

@[simp] theorem lift_ok (a : α) : lift (.ok a : Except ε α) = .ok a := rfl

@[simp] theorem lift_error (e : ε) : lift (.error e : Except ε α) = .error (.failed e) := rfl

@[simp] theorem lift_bind (x : Except ε α) (f : α → Except ε β) :
    lift (x >>= f) = lift x >>= fun a => lift (f a) := by
  cases x <;> rfl

theorem lift_ne_exhausted (x : Except ε α) : lift x ≠ .error .exhausted := by
  cases x <;> simp

theorem mapError_lift {ε' : Type} (f : ε → ε') (x : Except ε α) :
    (lift x).mapError (Halt.map f) = lift (x.mapError f) := by
  cases x <;> rfl

end lift

variable {ι ε α : Type} {body : (ι → Except (Halt ε) α) → ι → Except (Halt ε) α}

/-- A computation with room for so many calls that are active at once. -/
def onStack (body : (ι → Except (Halt ε) α) → ι → Except (Halt ε) α) :
    Nat → ι → Except (Halt ε) α
  | 0, _ => .error .exhausted
  | room + 1, i => body (onStack body room) i

/-- A call needs room, and depends only on calls that need less. -/
structure Descends (body : (ι → Except (Halt ε) α) → ι → Except (Halt ε) α)
    (need : ι → Nat) : Prop where
  need_pos : ∀ i, 0 < need i
  congr : ∀ i calls calls', (∀ j, need j < need i → calls j = calls' j) →
    body calls i = body calls' i

theorem Descends.onStack_eq {need : ι → Nat} {f : ι → Except ε α} (h : Descends body need)
    (unlimited : ∀ i, body (fun j => lift (f j)) i = lift (f i)) {room : Nat} {i : ι}
    (enough : need i ≤ room) : onStack body room i = lift (f i) := by
  induction room generalizing i with
  | zero =>
    have := h.need_pos i
    omega
  | succ room ih =>
    rw [onStack, ← unlimited]
    exact h.congr i _ _ fun j less => ih (by omega)

end CondCalc
