/-
  Weakest preconditions for programs over a state that may
  abort with an exception, where an abort keeps the state
  it has reached.

  `wp x Q E s` says that the program `x` started in `s`
  either returns a value and a state that satisfy `Q`, or
  aborts with an error and a state that satisfy `E`.
  `Keeps π x` is the frame condition: whether `x` returns
  or aborts, it leaves the projection `π` of the state as
  it was. `Preserves I E x` says that `x`, started in `I`,
  returns in `I` or aborts in `E`.

  Main declarations:
    * `Exec.wp`
    * `Exec.wp_mono`
    * `Exec.wp_bind`
    * `Exec.wp_forM`
    * `Exec.wp_forM_each`
    * `Exec.Keeps`
    * `Exec.Keeps.bind`
    * `Exec.keeps_forM`
    * `Exec.Preserves`
    * `Exec.Preserves.bind`
-/

------------------------------------------------------------
-- Weakest Preconditions
------------------------------------------------------------

namespace Exec

variable {ε σ α β τ : Type}

/- Run a program under a condition. -/
def when
    (c : Prop)
    [Decidable c]
    (x : EStateM ε σ PUnit) : EStateM ε σ PUnit :=
  if c then x else pure ⟨⟩

/- The weakest precondition of a program. -/
def wp
    (x : EStateM ε σ α)
    (Q : α → σ → Prop)
    (E : ε → σ → Prop)
    (s : σ) : Prop :=
  match x s with
  | .ok a s' => Q a s'
  | .error e s' => E e s'

/- Preconditions can be computed. -/
instance
    {x : EStateM ε σ α}
    {Q : α → σ → Prop}
    {E : ε → σ → Prop}
    {s : σ}
    [∀ a s', Decidable (Q a s')]
    [∀ e s', Decidable (E e s')] :
    Decidable (wp x Q E s) :=
  match hRun : x s with
  | .ok a s' =>
      decidable_of_iff (Q a s') (by unfold wp; rw [hRun])
  | .error e s' =>
      decidable_of_iff (E e s') (by unfold wp; rw [hRun])

/- Weaker postconditions have weaker preconditions. -/
theorem wp_mono
    {x : EStateM ε σ α}
    {Q Q' : α → σ → Prop}
    {E E' : ε → σ → Prop}
    {s : σ}
    (hQ : ∀ a s', Q a s' → Q' a s')
    (hE : ∀ e s', E e s' → E' e s')
    (hWp : wp x Q E s) :
    wp x Q' E' s := by
  unfold wp at *
  cases hRun : x s with
  | ok a s' =>
      simp only [hRun] at hWp
      exact hQ a s' hWp
  | error e s' =>
      simp only [hRun] at hWp
      exact hE e s' hWp

/- Two preconditions combine to their conjunction. -/
theorem wp_and
    {x : EStateM ε σ α}
    {Q Q' : α → σ → Prop}
    {E E' : ε → σ → Prop}
    {s : σ}
    (hWp : wp x Q E s)
    (hWp' : wp x Q' E' s) :
    wp x (fun a s' => Q a s' ∧ Q' a s')
      (fun e s' => E e s' ∧ E' e s') s := by
  unfold wp at *
  cases hRun : x s with
  | ok a s' =>
      simp only [hRun] at hWp hWp'
      exact ⟨hWp, hWp'⟩
  | error e s' =>
      simp only [hRun] at hWp hWp'
      exact ⟨hWp, hWp'⟩

/- A program ends as it does. -/
theorem wp_run
    (x : EStateM ε σ α)
    (s : σ) :
    wp x (fun a s' => x s = .ok a s')
      (fun e s' => x s = .error e s') s := by
  unfold wp
  cases x s with
  | ok a s' => rfl
  | error e s' => rfl

/- A returning run satisfies the postcondition. -/
theorem wp_ok
    {x : EStateM ε σ α}
    {Q : α → σ → Prop}
    {E : ε → σ → Prop}
    {s s' : σ}
    {a : α}
    (hWp : wp x Q E s)
    (hRun : x s = .ok a s') :
    Q a s' := by
  simpa only [wp, hRun] using hWp

/- An aborting run satisfies the error postcondition. -/
theorem wp_error
    {x : EStateM ε σ α}
    {Q : α → σ → Prop}
    {E : ε → σ → Prop}
    {s s' : σ}
    {e : ε}
    (hWp : wp x Q E s)
    (hRun : x s = .error e s') :
    E e s' := by
  simpa only [wp, hRun] using hWp

/- A program that cannot abort returns. -/
theorem exists_of_wp
    {x : EStateM ε σ α}
    {Q : α → σ → Prop}
    {s : σ}
    (hWp : wp x Q (fun _ _ => False) s) :
    ∃ a s', x s = .ok a s' ∧ Q a s' := by
  unfold wp at hWp
  cases hRun : x s with
  | ok a s' =>
      simp only [hRun] at hWp
      exact ⟨a, s', rfl, hWp⟩
  | error e s' =>
      simp only [hRun] at hWp

section Rules

variable {Q : α → σ → Prop}
variable {E : ε → σ → Prop}
variable {s : σ}

@[simp] theorem wp_pure
    (a : α) :
    wp (pure a : EStateM ε σ α) Q E s ↔ Q a s :=
  Iff.rfl

@[simp] theorem wp_throw
    (e : ε) :
    wp (throw e : EStateM ε σ α) Q E s ↔ E e s :=
  Iff.rfl

@[simp] theorem wp_get
    {Q : σ → σ → Prop} :
    wp (get : EStateM ε σ σ) Q E s ↔ Q s s :=
  Iff.rfl

@[simp] theorem wp_set
    {Q : PUnit → σ → Prop}
    (s' : σ) :
    wp (set s' : EStateM ε σ PUnit) Q E s ↔
      Q ⟨⟩ s' :=
  Iff.rfl

@[simp] theorem wp_modify
    {Q : PUnit → σ → Prop}
    (f : σ → σ) :
    wp (modify f : EStateM ε σ PUnit) Q E s ↔
      Q ⟨⟩ (f s) :=
  Iff.rfl

/- The precondition of a sequence is nested. -/
@[simp] theorem wp_bind
    {Q : β → σ → Prop}
    (x : EStateM ε σ α)
    (f : α → EStateM ε σ β) :
    wp (x >>= f) Q E s ↔
      wp x (fun a s' => wp (f a) Q E s') E s := by
  unfold wp
  change
    (match EStateM.bind x f s with
      | .ok a s' => Q a s'
      | .error e s' => E e s') ↔ _
  unfold EStateM.bind
  cases x s with
  | ok a s' => exact Iff.rfl
  | error e s' => exact Iff.rfl

/- What the last program establishes from every state needs
nothing of the programs before it. -/
theorem wp_bind_of_forall
    {Q : β → σ → Prop}
    {x : EStateM ε σ α}
    {f : α → EStateM ε σ β}
    (hLast : ∀ a s', wp (f a) Q E s')
    (hE : ∀ e s', E e s') :
    wp (x >>= f) Q E s := by
  rw [wp_bind, wp]
  split
  · exact hLast _ _
  · exact hE _ _

@[simp] theorem wp_ite
    (c : Prop)
    [Decidable c]
    (x y : EStateM ε σ α) :
    wp (if c then x else y) Q E s ↔
      if c then wp x Q E s else wp y Q E s := by
  by_cases hc : c
  · simp only [hc, if_true]
  · simp only [hc, if_false]

@[simp] theorem wp_when
    {Q : PUnit → σ → Prop}
    (c : Prop)
    [Decidable c]
    (x : EStateM ε σ PUnit) :
    wp (when c x) Q E s ↔
      if c then wp x Q E s else Q ⟨⟩ s := by
  unfold when
  rw [wp_ite, wp_pure]

end Rules

/-
  A loop over a list keeps an invariant that every pass
  keeps.
-/
theorem wp_forM
    {E : ε → σ → Prop}
    (I : σ → Prop)
    (f : β → EStateM ε σ PUnit) :
    ∀ (xs : List β) (s : σ),
      (∀ x ∈ xs, ∀ s, I s →
        wp (f x) (fun _ s' => I s') E s) →
      I s →
      wp (xs.forM f) (fun _ s' => I s') E s
  | [], s, _, hInv => hInv
  | x :: xs, s, hPass, hInv => by
      change wp (f x >>= fun _ => xs.forM f)
        (fun _ s' => I s') E s
      rw [wp_bind]
      apply wp_mono _ (fun _ _ hE => hE)
        (hPass x (by simp) s hInv)
      intro _ s' hInv'
      apply wp_forM I f xs s' _ hInv'
      intro y hy
      exact hPass y (by simp [hy])

/-
  A loop whose passes establish what belongs to their own
  element, and keep what belongs to the others, establishes
  it for every element.
-/
theorem wp_forM_each
    {E : ε → σ → Prop}
    (P : β → σ → Prop)
    (f : β → EStateM ε σ PUnit)
    (hOwn : ∀ x s, wp (f x) (fun _ s' => P x s') E s)
    (hOther : ∀ x y s, P y s →
      wp (f x) (fun _ s' => P y s') E s) :
    ∀ (xs : List β) (s : σ),
      wp (xs.forM f) (fun _ s' => ∀ x ∈ xs, P x s') E s
  | [], s => by
      intro x hx
      exact absurd hx List.not_mem_nil
  | x :: xs, s => by
      change wp (f x >>= fun _ => xs.forM f)
        (fun _ s' => ∀ y ∈ x :: xs, P y s') E s
      rw [wp_bind]
      apply wp_mono _ (fun _ _ hE => hE) (hOwn x s)
      intro _ s₁ hHead
      have hKeep :
          wp (xs.forM f) (fun _ s' => P x s') E s₁ :=
        wp_forM (P x) f xs s₁
          (fun y _ s hP => hOther y x s hP) hHead
      have hRest := wp_forM_each P f hOwn hOther xs s₁
      apply wp_mono _ (fun _ _ hE => hE.1)
        (wp_and hKeep hRest)
      rintro _ s₂ ⟨hHead₂, hTail₂⟩ y hy
      rcases List.mem_cons.mp hy with rfl | hy
      · exact hHead₂
      · exact hTail₂ y hy

------------------------------------------------------------
-- Frame Conditions
------------------------------------------------------------

/- The program leaves the projection `π` of the state. -/
def Keeps
    (π : σ → τ)
    (x : EStateM ε σ α) : Prop :=
  ∀ s, wp x (fun _ s' => π s' = π s)
    (fun _ s' => π s' = π s) s

variable {π : σ → τ}

/- What follows from keeping `π` holds after the program. -/
theorem Keeps.wp
    {x : EStateM ε σ α}
    {Q : α → σ → Prop}
    {E : ε → σ → Prop}
    {s : σ}
    (hx : Keeps π x)
    (hQ : ∀ a s', π s' = π s → Q a s')
    (hE : ∀ e s', π s' = π s → E e s') :
    wp x Q E s :=
  wp_mono hQ hE (hx s)

theorem keeps_pure
    (a : α) :
    Keeps π (pure a : EStateM ε σ α) :=
  fun _ => rfl

theorem keeps_get :
    Keeps π (get : EStateM ε σ σ) :=
  fun _ => rfl

theorem keeps_modify
    {f : σ → σ}
    (hf : ∀ s, π (f s) = π s) :
    Keeps π (modify f : EStateM ε σ PUnit) :=
  hf

/- A sequence of programs that keep `π` keeps `π`. -/
theorem Keeps.bind
    {x : EStateM ε σ α}
    {f : α → EStateM ε σ β}
    (hx : Keeps π x)
    (hf : ∀ a, Keeps π (f a)) :
    Keeps π (x >>= f) := by
  intro s
  rw [wp_bind]
  apply wp_mono _ (fun _ _ hE => hE) (hx s)
  intro a s' hEq
  have hNext := hf a s'
  simpa only [hEq] using hNext

theorem keeps_when
    {c : Prop}
    [Decidable c]
    {x : EStateM ε σ PUnit}
    (hx : c → Keeps π x) :
    Keeps π (when c x) := by
  unfold when
  by_cases hc : c
  · simpa only [hc, if_true] using hx hc
  · simp only [hc, if_false]
    exact keeps_pure PUnit.unit

/- A loop whose passes keep `π` keeps `π`. -/
theorem keeps_forM
    {f : β → EStateM ε σ PUnit}
    {xs : List β}
    (hf : ∀ x ∈ xs, Keeps π (f x)) :
    Keeps π (xs.forM f) := by
  induction xs with
  | nil => exact fun _ => rfl
  | cons x xs ih =>
      apply Keeps.bind (hf x (by simp))
      intro _
      apply ih
      intro y hy
      exact hf y (by simp [hy])

------------------------------------------------------------
-- Invariants
------------------------------------------------------------

/- Started in `I`, the program returns in `I` or aborts in
`E`. -/
def Preserves
    (I E : σ → Prop)
    (x : EStateM ε σ α) : Prop :=
  ∀ s, I s → wp x (fun _ s' => I s') (fun _ s' => E s') s

section Invariants

variable {I E : σ → Prop}

/- What leaves a projection preserves what depends on it. -/
theorem Keeps.preserves
    {x : EStateM ε σ α}
    (hx : Keeps π x)
    (hI : ∀ s s', π s' = π s → I s → I s')
    (hE : ∀ s, I s → E s) :
    Preserves I E x := by
  intro s hInv
  apply hx.wp
  · exact fun _ s' hEq => hI s s' hEq hInv
  · exact fun _ s' hEq => hE s' (hI s s' hEq hInv)

/- A program that preserves each value of a projection leaves
the projection. -/
theorem Keeps.of_preserves
    {x : EStateM ε σ α}
    (hx : ∀ v, Preserves (fun s => π s = v)
      (fun s => π s = v) x) :
    Keeps π x :=
  fun s => hx (π s) s rfl

theorem preserves_pure
    (a : α) :
    Preserves I E (pure a : EStateM ε σ α) :=
  fun _ hInv => hInv

theorem preserves_get :
    Preserves I E (get : EStateM ε σ σ) :=
  fun _ hInv => hInv

theorem preserves_modify
    {f : σ → σ}
    (hf : ∀ s, I s → I (f s)) :
    Preserves I E (modify f : EStateM ε σ PUnit) :=
  hf

/- Invariants compose along a sequence. -/
theorem Preserves.bind
    {x : EStateM ε σ α}
    {f : α → EStateM ε σ β}
    (hx : Preserves I E x)
    (hf : ∀ a, Preserves I E (f a)) :
    Preserves I E (x >>= f) := by
  intro s hInv
  rw [wp_bind]
  apply wp_mono _ (fun _ _ hE => hE) (hx s hInv)
  exact fun a s' hInv' => hf a s' hInv'

theorem preserves_ite
    {c : Prop}
    [Decidable c]
    {x y : EStateM ε σ α}
    (hx : Preserves I E x)
    (hy : Preserves I E y) :
    Preserves I E (if c then x else y) := by
  by_cases hc : c
  · simpa only [hc, if_true] using hx
  · simpa only [hc, if_false] using hy

theorem preserves_when
    {c : Prop}
    [Decidable c]
    {x : EStateM ε σ PUnit}
    (hx : c → Preserves I E x) :
    Preserves I E (when c x) := by
  unfold when
  by_cases hc : c
  · simpa only [hc, if_true] using hx hc
  · simp only [hc, if_false]
    exact preserves_pure PUnit.unit

theorem preserves_forM
    {f : β → EStateM ε σ PUnit}
    {xs : List β}
    (hf : ∀ x ∈ xs, Preserves I E (f x)) :
    Preserves I E (xs.forM f) :=
  fun s hInv => wp_forM I f xs s hf hInv

end Invariants

end Exec
