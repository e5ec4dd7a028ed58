import Mathlib.Data.List.Nodup
import ElevatorControl.State

/-
  What a node knows about the elevators: the last state of
  each, by its id.

  The states are of any type that has an id. No two states
  have the same id.

  Key definitions include:
    * `GlobalState`
    * `GlobalState.update`
    * `GlobalState.get`

  Key theorems include:
    * `GlobalState.get_mem`
    * `GlobalState.mem_update_iff`
    * `GlobalState.get_update`
-/

------------------------------------------------------------
-- Global State
------------------------------------------------------------

namespace ElevatorControl

/- The known states, in the order in which the map of the
source is traversed. -/
structure GlobalState
    {α : Type}
    (id : α → Int) where
  elevators : List α
  distinct : (elevators.map id).Nodup

namespace GlobalState

variable {α : Type}
variable {id : α → Int}

/- No elevator is known yet. -/
def empty : GlobalState id := ⟨[], List.nodup_nil⟩

/- The elevator is known. -/
def has
    (g : GlobalState id)
    (i : Int) : Bool :=
  (g.elevators.find? fun e => id e == i).isSome

/- The last state of the elevator. -/
def get
    (g : GlobalState id)
    (i : Int) : Except AssertionFailed α :=
  match g.elevators.find? fun e => id e == i with
  | some e => .ok e
  | none => .error ⟨"state not found", .generall⟩

/- What an entry is after an assignment to the map. -/
def assign
    (id : α → Int)
    (state e : α) : α :=
  if id e = id state then state else e

theorem id_assign
    {state e : α} :
    id (assign id state e) = id e := by
  unfold assign
  split
  · next hSame => exact hSame.symm
  · rfl

theorem has_iff
    {g : GlobalState id}
    {i : Int} :
    g.has i = true ↔ i ∈ g.elevators.map id := by
  unfold has
  rw [List.find?_isSome, List.mem_map]
  simp only [beq_iff_eq]

/-
  The state takes the place of the one with its id. The state
  of an unknown elevator is put in front: the source leaves
  open where an unordered map puts a new key.
-/
def update
    (g : GlobalState id)
    (state : α) : GlobalState id :=
  if hHas : g.has (id state) = true then
    { elevators := g.elevators.map (assign id state)
      distinct := by
        rw [List.map_map]
        have hSame : id ∘ assign id state = id :=
          funext fun _ => id_assign
        rw [hSame]
        exact g.distinct }
  else
    { elevators := state :: g.elevators
      distinct := by
        rw [List.map_cons, List.nodup_cons]
        exact ⟨fun hMem => hHas (has_iff.mpr hMem),
          g.distinct⟩ }

variable {g : GlobalState id}

theorem elevators_update
    (g : GlobalState id)
    (state : α) :
    (g.update state).elevators =
      if g.has (id state) = true then
        g.elevators.map (assign id state)
      else state :: g.elevators := by
  unfold update
  split
  · rfl
  · rfl

/- The state that is found has the id it is looked up by. -/
theorem get_mem
    {i : Int}
    {e : α}
    (hGet : g.get i = .ok e) :
    e ∈ g.elevators ∧ id e = i := by
  unfold get at hGet
  cases hFind : g.elevators.find? fun e => id e == i with
  | none =>
      rw [hFind] at hGet
      cases hGet
  | some e' =>
      rw [hFind] at hGet
      cases hGet
      have hId := List.find?_some hFind
      exact ⟨List.mem_of_find?_eq_some hFind,
        beq_iff_eq.mp hId⟩

/- The states that are known after an update. -/
theorem mem_update_iff
    {state e : α} :
    e ∈ (g.update state).elevators ↔
      e = state ∨ e ∈ g.elevators ∧ id e ≠ id state := by
  rw [elevators_update]
  split
  · next hHas =>
      rcases List.mem_map.mp (has_iff.mp hHas) with
        ⟨old, hOld, hId⟩
      rw [List.mem_map]
      constructor
      · rintro ⟨e', he', rfl⟩
        unfold assign
        by_cases hSame : id e' = id state
        · rw [if_pos hSame]
          exact Or.inl rfl
        · rw [if_neg hSame]
          exact Or.inr ⟨he', hSame⟩
      · rintro (rfl | ⟨he, hOther⟩)
        · exact ⟨old, hOld, if_pos hId⟩
        · exact ⟨e, he, if_neg hOther⟩
  · next hNone =>
      rw [List.mem_cons]
      constructor
      · rintro (rfl | he)
        · exact Or.inl rfl
        · refine Or.inr ⟨he, fun hSame => ?_⟩
          exact hNone (has_iff.mpr
            (hSame ▸ List.mem_map_of_mem he))
      · exact Or.imp_right And.left

theorem mem_update
    {state e : α}
    (hMem : e ∈ (g.update state).elevators) :
    e = state ∨ e ∈ g.elevators :=
  (mem_update_iff.mp hMem).imp_right And.left

theorem self_mem_update
    (g : GlobalState id)
    (state : α) :
    state ∈ (g.update state).elevators :=
  mem_update_iff.mpr (Or.inl rfl)

/- Every state that is known is found by its id. -/
theorem get_of_mem
    {e : α}
    (hMem : e ∈ g.elevators) :
    g.get (id e) = .ok e := by
  have hFind : g.elevators.find? (fun x => id x == id e) =
      some e := by
    cases hFound : g.elevators.find? fun x => id x == id e with
    | none =>
        have hOther := List.find?_eq_none.mp hFound e hMem
        exact absurd (beq_self_eq_true _) hOther
    | some e' =>
        have hId : (id e' == id e) = true :=
          List.find?_some (p := fun x => id x == id e) hFound
        rw [List.inj_on_of_nodup_map g.distinct
          (List.mem_of_find?_eq_some hFound) hMem
          (beq_iff_eq.mp hId)]
  unfold get
  rw [hFind]

/- The last state of an elevator is found. -/
theorem get_update
    (g : GlobalState id)
    (state : α) :
    (g.update state).has (id state) = true ∧
      (g.update state).get (id state) = .ok state := by
  have hMem := self_mem_update g state
  exact ⟨has_iff.mpr (List.mem_map_of_mem hMem),
    get_of_mem hMem⟩

theorem eq_of_elevators
    {g' : GlobalState id}
    (hSame : g.elevators = g'.elevators) :
    g = g' := by
  cases g
  cases g'
  cases hSame
  rfl

end GlobalState

end ElevatorControl
