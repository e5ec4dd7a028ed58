import Mathlib.Logic.Basic

/-
  Programs that call the operations of a machine.

  A client calls an operation and goes on with what it
  returns. The machine may be changed from outside before
  every call. When two machines answer the calls of a client
  alike and stay related, the client cannot tell them apart.

  Main declarations:
    * `Client`
    * `Client.run`
    * `Client.Calls`
    * `Client.run_related`
-/

------------------------------------------------------------
-- Clients
------------------------------------------------------------

variable {Op Out α ε σ τ : Type}

/- A program that calls a machine and goes on with what the
call returns. -/
inductive Client (Op Out α : Type) where
  | done (a : α)
  | call (op : Op) (next : Out → Client Op Out α)

namespace Client

/- Run the client. `outside n` is what has happened to the
machine before its call number `n`. -/
def run
    (step : ε → Op → σ → Out × σ)
    (outside : Nat → ε) :
    Nat → Client Op Out α → σ → α × σ
  | _, .done a, s => (a, s)
  | n, .call op next, s =>
      run step outside (n + 1)
        (next (step (outside n) op s).1)
        (step (outside n) op s).2

/- The client calls only operations with `P`, whatever they
return. -/
def Calls
    (P : Op → Prop) : Client Op Out α → Prop
  | .done _ => True
  | .call op next => P op ∧ ∀ out, (next out).Calls P

/- Machines that answer alike have the same clients. -/
theorem run_related
    {P : Op → Prop}
    {R : σ → τ → Prop}
    {step : ε → Op → σ → Out × σ}
    {step' : ε → Op → τ → Out × τ}
    (hStep : ∀ e op s t, P op → R s t →
      (step e op s).1 = (step' e op t).1 ∧
        R (step e op s).2 (step' e op t).2)
    (outside : Nat → ε)
    (client : Client Op Out α)
    (hCalls : client.Calls P)
    (n : Nat)
    (s : σ)
    (t : τ)
    (hRelated : R s t) :
    (client.run step outside n s).1 =
        (client.run step' outside n t).1 ∧
      R (client.run step outside n s).2
        (client.run step' outside n t).2 := by
  induction client generalizing n s t with
  | done a => exact ⟨rfl, hRelated⟩
  | call op next ih =>
      rcases hCalls with ⟨hOp, hNext⟩
      rcases hStep (outside n) op s t hOp hRelated with
        ⟨hSame, hRelated'⟩
      unfold run
      rw [hSame]
      exact ih _ (hNext _) (n + 1) _ _ hRelated'

end Client
